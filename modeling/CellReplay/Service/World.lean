import CellReplay.Service.Calls
import CellReplay.SessionLocks
import CellReplay.Store

/-!
# Service.World

What surrounds the calls of a service, and how it answers their effects.

* `Surroundings`    — which programs are on disk, and what running one comes to.
* `Faults`          — the store operations that are made to fail.
* `World`           — store, registry, locks and surroundings, and the program calls made so far.
* `World.answer`    — one effect of one call; there is no answer while the call has to wait.
* `Program.exec`    — a call that has the world to itself.
* `Program.advance` — a call among others, up to where it ends, pauses or has to wait.
-/

namespace CellReplay

/-- What lies outside of the program, in a state of type `ε`. -/
structure Surroundings (ε : Type) where
  isThere : ε → String → Bool
  run : ε → Call → Outcome × ε

inductive Method
  | findContext
  | saveContext
  | findSessions
  | findSession
  | saveSession
  deriving DecidableEq, Repr

def Method.text : Method → String
  | findContext => "find_context"
  | saveContext => "save_context"
  | findSessions => "find_sessions"
  | findSession => "find_session"
  | saveSession => "save_session"

/-- Which calls of an operation fail, counted from 0, and how many calls there have been. -/
structure Faults where
  planned : List (Method × Nat)
  made : Table Method Nat
  deriving DecidableEq, Repr

namespace Faults

def none : Faults := ⟨[], .empty⟩

def count (f : Faults) (m : Method) : Nat := (f.made.get? m).getD 0

/-- Whether the next call of an operation fails. -/
def next (f : Faults) (m : Method) : Option Failure :=
  if (m, f.count m) ∈ f.planned then
    some (.database (m.text ++ " failed at call " ++ Text.decimal (f.count m)))
  else .none

def counted (f : Faults) (m : Method) : Faults := { f with made := f.made.put m (f.count m + 1) }

end Faults

structure World (ε : Type) where
  store : Store
  registry : Registry
  locks : SessionLocks Nat
  faults : Faults
  outside : ε
  calls : List Call

namespace World

variable {ε : Type}

def new (store : Store) (factories : Table String HandlerKind) (faults : Faults) (outside : ε) :
    World ε :=
  ⟨store, .new factories, .empty, faults, outside, []⟩

/-- A store operation, unless it is made to fail. -/
def attempt {α : Type} (w : World ε) (m : Method) (op : Store → Except Failure α × Store) :
    Except Failure α × World ε :=
  let counted := { w with faults := w.faults.counted m }
  match w.faults.next m with
  | some e => (.error e, counted)
  | none => let (r, store) := op w.store; (r, { counted with store := store })

/-- The answer to an effect of the call `ticket`. A call that asks for a lock queues first and has
to wait until the lock is its own. -/
def answer (o : Surroundings ε) (ticket : Nat) (w : World ε) :
    (e : Effect) → Option e.Answer × World ε
  | .findContext language =>
    let (r, w) := w.attempt .findContext fun s => (s.findContext language, s)
    (some r, w)
  | .findSession k =>
    let (r, w) := w.attempt .findSession fun s => (s.findSession k, s)
    (some r, w)
  | .saveSession x =>
    let (r, w) := w.attempt .saveSession (·.saveSession x)
    (some r, w)
  | .acquire k =>
    let locks := if (w.locks.phaseOf ticket).isSome then w.locks else w.locks.enter ticket k
    if locks.phaseOf ticket = some .granted then
      (some (), { w with locks := locks.resume ticket })
    else (none, { w with locks := locks })
  | .release _ =>
    (some (), { w with locks := (w.locks.release ticket).prune ticket })
  | .resolve c =>
    let (h, registry) := w.registry.resolve (o.isThere w.outside) c
    (some h, { w with registry := registry })
  | .run call =>
    let (r, outside) := o.run w.outside call
    (some r, { w with outside := outside, calls := w.calls ++ [call] })
  | .pause => (some (), w)

end World

/-- Runs a program to its end. It has the world to itself, so it never waits; one that does has no
value. -/
def Program.exec {ε α : Type} (o : Surroundings ε) (ticket : Nat) :
    Program α → World ε → Option α × World ε
  | .done a, w => (some a, w)
  | .perform e next, w =>
    match w.answer o ticket e with
    | (some x, w) => (next x).exec o ticket w
    | (none, w) => (none, w)

/-- What a program still has to do after it has run until it ended, paused or had to wait. -/
def Program.advance {ε α : Type} (o : Surroundings ε) (ticket : Nat) :
    Program α → World ε → Program α × World ε
  | .done a, w => (.done a, w)
  | .perform .pause next, w => (next (), w)
  | .perform e next, w =>
    match w.answer o ticket e with
    | (some x, w) => (next x).advance o ticket w
    | (none, w) => (.perform e next, w)

def Program.value? {α : Type} : Program α → Option α
  | .done a => some a
  | .perform _ _ => none

/-- Programs in the order in which they were started, each with its ticket. -/
abbrev Tasks (α : Type) := List (Nat × Program α)

def Tasks.turn {ε α : Type} (o : Surroundings ε) : Tasks α → World ε → Tasks α × World ε
  | [], w => ([], w)
  | (n, p) :: ts, w =>
    let (p, w) := p.advance o n w
    let (ts, w) := Tasks.turn o ts w
    ((n, p) :: ts, w)

def Tasks.run {ε α : Type} (o : Surroundings ε) : Nat → Tasks α → World ε → Tasks α × World ε
  | 0, ts, w => (ts, w)
  | fuel + 1, ts, w =>
    if ts.all fun t => t.2.value?.isSome then (ts, w)
    else
      let (ts, w) := Tasks.turn o ts w
      Tasks.run o fuel ts w

/-- The results of programs that are started together, each of which pauses `pauses` times before a
run. A lock is passed on once in a turn, so the turns below are enough if each program runs one
program at most. -/
def runTogether {ε α : Type} (o : Surroundings ε) (pauses : Nat) (ps : List (Program α))
    (w : World ε) : List (Option α) × World ε :=
  let tasks : Tasks α := (ps.map (·.pausing pauses)).zipIdx.map fun (p, i) => (i, p)
  let (ts, w) := Tasks.run o ((ps.length + 1) * (pauses + 2)) tasks w
  (ts.map (·.2.value?), w)

end CellReplay
