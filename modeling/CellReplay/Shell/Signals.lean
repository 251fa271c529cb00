import CellReplay.Shell.Bytes

/-!
# Shell.Signals

The signals that processes send each other: their names, what they do to a process that has made no
arrangements, and how a shell reports an end by one.
-/

namespace CellReplay.Shell

def signalNames : List (Nat × String) := [
  (1, "HUP"), (2, "INT"), (3, "QUIT"), (4, "ILL"), (5, "TRAP"), (6, "ABRT"), (7, "BUS"), (8, "FPE"),
  (9, "KILL"), (10, "USR1"), (11, "SEGV"), (12, "USR2"), (13, "PIPE"), (14, "ALRM"), (15, "TERM"),
  (16, "STKFLT"), (17, "CHLD"), (18, "CONT"), (19, "STOP"), (20, "TSTP"), (21, "TTIN"), (22, "TTOU"),
  (23, "URG"), (24, "XCPU"), (25, "XFSZ"), (26, "VTALRM"), (27, "PROF"), (28, "WINCH"), (29, "POLL"),
  (30, "PWR"), (31, "SYS")]

def signalPipe : Nat := 13
def signalKill : Nat := 9
def signalTerm : Nat := 15
def signalSegv : Nat := 11

/-- The number of a signal by its number or its name; 0 is the end of the shell. -/
def signalOf? (t : Bytes) : Option Nat :=
  match natOf? t with
  | some n => if n ≤ 64 then some n else none
  | none =>
    let u := t.map Char.toUpper
    if u = "EXIT".toList then some 0
    else (signalNames.find? (·.2.toList = u)).map (·.1)

def signalName (n : Nat) : Bytes :=
  if n = 0 then "EXIT".toList
  else
    match signalNames.lookup n with
    | some t => t.toList
    | none => Bytes.ofNat n

/-- Signals that do nothing to a process that does not care, and those that stop one. -/
def isHarmless (n : Nat) : Bool := n ∈ [0, 17, 18, 23, 28]
def isStopping (n : Nat) : Bool := n ∈ [19, 20, 21, 22]

/-- How a shell reports that a signal has ended a process; some ends are passed over. -/
def signalReport (n : Nat) : String :=
  match n with
  | 1 => "Hangup"
  | 3 => "Quit"
  | 4 => "Illegal instruction"
  | 5 => "Trace/breakpoint trap"
  | 6 => "Aborted"
  | 7 => "Bus error"
  | 8 => "Floating point exception"
  | 9 => "Killed"
  | 10 => "User defined signal 1"
  | 11 => "Segmentation fault"
  | 12 => "User defined signal 2"
  | 14 => "Alarm clock"
  | 15 => "Terminated"
  | 16 => "Stack fault"
  | 24 => "CPU time limit exceeded"
  | 25 => "File size limit exceeded"
  | 26 => "Virtual timer expired"
  | 27 => "Profiling timer expired"
  | 29 => "I/O possible"
  | 30 => "Power failure"
  | 31 => "Bad system call"
  | _ => ""

end CellReplay.Shell
