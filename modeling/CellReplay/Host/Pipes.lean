import CellReplay.Outcome
import CellReplay.Text.Utf8

/-!
# Host.Pipes

What a program prints goes to two pipes, which are read side by side into one list of bytes.

* `Stream`       — what is left of a pipe, or that its end has been seen.
* `Pick`         — a choice of what to read next: a pipe, and how many bytes at most.
* `Merge.step`   — one read. Only a pipe whose end has not been seen is ever read.
* `Merge.follow` — reads one after the other.
* `Merge.read`   — reads up to both ends.
* `Merge.picks`  — the picks for bytes that arrive in a known order.
* `Course`       — a program that has come to its end; `Course.finished` is what is told of it.

Which pipe is read next, and how many bytes come at a time, is not up to the reader: all that holds
of reading has to hold for every sequence of picks.
-/

namespace CellReplay

open Text

inductive Outlet
  | output
  | complaints
  deriving DecidableEq, Repr

def Outlet.other : Outlet → Outlet
  | output => complaints
  | complaints => output

/-- The bytes of a pipe that are still to come; nothing once its end has been seen. -/
abbrev Stream := Option (List UInt8)

/-- How many bytes are read at once, at most. -/
def chunkBytes : Nat := 4096

/-- A pipe, and one less than the number of bytes that are there to be read at once. -/
structure Pick where
  outlet : Outlet
  more : Fin chunkBytes
  deriving DecidableEq, Repr

/-- One read of a stream: what comes, and what is left. Nothing comes at the end only. -/
def Stream.read (n : Nat) : Stream → List UInt8 × Stream
  | none => ([], none)
  | some [] => ([], none)
  | some (b :: bs) => ((b :: bs).take (n + 1), some ((b :: bs).drop (n + 1)))

/-- More reads of a stream than this there cannot be: one for each byte, and one for the end. -/
def Stream.reads : Stream → Nat
  | none => 0
  | some bs => bs.length + 1

theorem Stream.reads_read {s : Stream} (h : s.isSome) (n : Nat) :
    Stream.reads (s.read n).2 < s.reads := by
  rcases s with _ | _ | ⟨b, bs⟩
  · cases h
  · exact Nat.zero_lt_one
  · simp only [Stream.read, Stream.reads, List.length_drop, List.length_cons]
    omega

structure Merge where
  output : Stream
  complaints : Stream
  taken : List UInt8
  deriving DecidableEq, Repr

namespace Merge

def start (output complaints : List UInt8) : Merge := ⟨some output, some complaints, []⟩

def isDone (m : Merge) : Bool := m.output.isNone && m.complaints.isNone

def stream (m : Merge) : Outlet → Stream
  | .output => m.output
  | .complaints => m.complaints

def withStream (m : Merge) (s : Stream) : Outlet → Merge
  | .output => { m with output := s }
  | .complaints => { m with complaints := s }

/-- The pipe that is read: the one that is picked, or else the one that is left. -/
def source (m : Merge) (k : Pick) : Outlet :=
  if (m.stream k.outlet).isSome then k.outlet else k.outlet.other

/-- What the next read takes. -/
def piece (m : Merge) (k : Pick) : List UInt8 := ((m.stream (m.source k)).read k.more).1

def step (m : Merge) (k : Pick) : Merge :=
  { m.withStream ((m.stream (m.source k)).read k.more).2 (m.source k) with
    taken := m.taken ++ m.piece k }

def follow (m : Merge) (ks : List Pick) : Merge := ks.foldl step m

def reads (m : Merge) : Nat := m.output.reads + m.complaints.reads

theorem isSome_source {m : Merge} (h : m.isDone = false) (k : Pick) :
    (m.stream (m.source k)).isSome := by
  rcases m with ⟨_ | _, _ | _, taken⟩
  · cases h
  all_goals
    rcases k with ⟨_ | _, n⟩
    all_goals rfl

theorem reads_step {m : Merge} (h : m.isDone = false) (k : Pick) : (m.step k).reads < m.reads := by
  have hless := Stream.reads_read (isSome_source h k) k.more
  unfold step
  generalize m.source k = o at hless ⊢
  cases o with
  | output =>
    simp only [stream, withStream, reads] at hless ⊢
    omega
  | complaints =>
    simp only [stream, withStream, reads] at hless ⊢
    omega

/-- Reads as long as an end has not been seen. The read with number `i` is picked by `next i`. -/
def readFrom (next : Nat → Pick) (i : Nat) (m : Merge) : Merge :=
  if h : m.isDone then m else (m.step (next i)).readFrom next (i + 1)
termination_by m.reads
decreasing_by exact reads_step (Bool.eq_false_iff.mpr h) (next i)

def read (m : Merge) (next : Nat → Pick) : Merge := m.readFrom next 0

/-- What has been read, as a text. -/
def text (m : Merge) : String := String.ofList (Utf8.decodeLossy m.taken)

/-- The reads that take `n` bytes of a pipe, in pieces that are as large as can be. -/
def picksFor (o : Outlet) (n : Nat) : List Pick :=
  List.replicate (n / chunkBytes) ⟨o, ⟨chunkBytes - 1, by decide⟩⟩ ++
    if n % chunkBytes = 0 then []
    else [⟨o, ⟨n % chunkBytes - 1, by have := Nat.mod_lt n (by decide : 0 < chunkBytes); omega⟩⟩]

/-- The reads of bytes that arrive in this order, up to both ends. -/
def picks (arrivals : List (Outlet × List UInt8)) : List Pick :=
  arrivals.flatMap (fun (o, bytes) => picksFor o bytes.length) ++
    [⟨.output, ⟨0, by decide⟩⟩, ⟨.complaints, ⟨0, by decide⟩⟩]

/-- The reads in a list, and whatever else there is behind them. -/
def inOrder (ks : List Pick) (i : Nat) : Pick := ks.getD i ⟨.output, ⟨0, by decide⟩⟩

end Merge

/-- A program that has come to its end: with which exit code, unless it was killed, and what it has
printed where, in the order of time. -/
structure Course where
  code : Option Int
  arrivals : List (Outlet × List UInt8)
  deriving DecidableEq, Repr

namespace Course

/-- All that went to one pipe. -/
def printed (c : Course) (o : Outlet) : List UInt8 :=
  c.arrivals.flatMap fun a => if a.1 = o then a.2 else []

/-- What is told of the program if its pipes are read in this way. -/
def finished (c : Course) (next : Nat → Pick) : Finished :=
  ⟨c.code, ((Merge.start (c.printed .output) (c.printed .complaints)).read next).text⟩

end Course

end CellReplay
