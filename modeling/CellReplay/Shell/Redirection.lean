import CellReplay.Shell.Process

/-!
# Shell.Redirection

Descriptors that are led elsewhere.

* `State.redirect`    — one descriptor, to a file or to where another one leads.
* `State.redirectAll` — several, one after the other.

An error is what a shell complains about.
-/

namespace CellReplay.Shell

/-- A redirection whose target is known. -/
structure Route where
  descriptor : Nat
  kind : RedirectKind
  target : Bytes
  deriving DecidableEq, Repr

/-- The descriptor that a path below `/dev` stands for. -/
def deviceNumber? (path : Bytes) : Option Nat :=
  if path = "/dev/stdin".toList then some 0
  else if path = "/dev/stdout".toList then some 1
  else if path = "/dev/stderr".toList then some 2
  else
    let front := "/dev/fd/".toList
    if front.isPrefixOf path then natOf? (path.drop front.length) else none

def openReason : FileError → String
  | .notFound => "No such file"
  | .notDirectory => "No such file"
  | .denied => "Permission denied"
  | .isDirectory => "Is a directory"
  | .nulByte => "No such file"

def createReason : FileError → String
  | .notFound => "Directory nonexistent"
  | .notDirectory => "Directory nonexistent"
  | .denied => "Permission denied"
  | .isDirectory => "Is a directory"
  | .nulByte => "Directory nonexistent"

namespace State

/-- A descriptor leads elsewhere from now on; what it has led to is let go of. -/
def lead (s : State) (descriptor : Nat) (c : Channel) : State :=
  let s := s.hold s.self.channels s.self.clock
  s.withChannels (s.self.channels.put descriptor c)

def shut (s : State) (descriptor : Nat) : State :=
  let s := s.hold s.self.channels s.self.clock
  s.withChannels (s.self.channels.erase descriptor)

def addFile (s : State) (o : OpenFile) : Channel × State :=
  let (id, s) := s.freshId
  (.file id, { s with all := { s.all with opened := s.all.opened.put id o } })

/-- A file as a new channel. -/
def openFile (s : State) (kind : RedirectKind) (target : Bytes) : Except Bytes (Channel × State) :=
  let path := Bytes.toText target
  let fault := fun (verb reason : String) =>
    verb.toList ++ target ++ ": ".toList ++ reason.toList
  let files := s.all.files
  let place := files.place s.self.cwd path
  if place.toOption = some ["dev", "null"] then .ok (.null, s)
  else if kind = .read then
    match place, files.find s.self.cwd path with
    | .ok p, .ok _ => .ok (s.addFile ⟨p, 0, false⟩)
    | _, .error e => .error (fault "cannot open " (openReason e))
    | .error e, _ => .error (fault "cannot open " (openReason e))
  else
    match place with
    | .error e => .error (fault "cannot create " (createReason e))
    | .ok p =>
      let kept := if kind = .write then some [] else files.contentAt s.self.cwd path
      match files.write s.self.cwd path (kept.getD []) with
      | .error e => .error (fault "cannot create " (createReason e))
      | .ok files =>
        .ok ({ s with all := { s.all with files := files } }.addFile ⟨p, 0, kind = RedirectKind.append⟩)

def redirect (s : State) (r : Route) : Except Bytes State :=
  let copied := fun (n : Nat) =>
    match s.self.channels.get? n with
    | some c => .ok (s.lead r.descriptor c)
    | none => .error (Bytes.ofNat n ++ ": Bad file descriptor".toList)
  match r.kind with
  | .here =>
    let (c, s) := s.addSource ⟨[(0, r.target)], 0⟩
    .ok (s.lead r.descriptor c)
  | .duplicate =>
    if r.target = ['-'] then .ok (s.shut r.descriptor)
    else
      match natOf? r.target with
      | some n => copied n
      | none => .error "Bad fd number".toList
  | kind =>
    match deviceNumber? r.target with
    | some n => copied n
    | none => do
      let (c, s) ← s.openFile kind r.target
      return s.lead r.descriptor c

def redirectAll (s : State) : List Route → Except Bytes State
  | [] => .ok s
  | r :: rs => do (← s.redirect r).redirectAll rs

end State

end CellReplay.Shell
