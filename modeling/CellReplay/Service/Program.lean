import CellReplay.Failure
import CellReplay.Registry

/-!
# Service.Program

Calls as programs: what a call asks of the world around it, one effect after the other, and what it
does with the answers.

* `Effect`  — the questions and orders, with the type of their answers.
* `Program` — a tree of effects; every way through it ends in a value.
-/

namespace CellReplay

inductive Effect
  | findContext (language : String)
  | findSession (key : SessionKey)
  | saveSession (session : Session)
  | acquire (key : SessionKey)
  | release (key : SessionKey)
  | resolve (context : Context)
  | run (call : Call)
  | pause
  deriving DecidableEq, Repr

@[reducible] def Effect.Answer : Effect → Type
  | findContext _ => Except Failure (Option Context)
  | findSession _ => Except Failure (Option Session)
  | saveSession _ => Except Failure Unit
  | acquire _ => Unit
  | release _ => Unit
  | resolve _ => Option Handler
  | run _ => Outcome
  | pause => Unit

inductive Program (α : Type)
  | done (a : α)
  | perform (e : Effect) (next : e.Answer → Program α)

namespace Program

def bind {α β : Type} : Program α → (α → Program β) → Program β
  | done a, f => f a
  | perform e next, f => perform e fun x => (next x).bind f

instance : Monad Program where
  pure := done
  bind := bind

/-- A single effect. -/
def ask (e : Effect) : Program e.Answer := perform e done

/-- The program with `n` pauses before every run. -/
def pausing {α : Type} (n : Nat) : Program α → Program α
  | done a => done a
  | perform (.run c) next => n.repeat (fun p => perform .pause fun _ => p)
      (perform (.run c) fun x => (next x).pausing n)
  | perform e next => perform e fun x => (next x).pausing n

theorem pure_eq {α : Type} (a : α) : (pure a : Program α) = done a := rfl

theorem bind_eq {α β : Type} (p : Program α) (f : α → Program β) : p >>= f = p.bind f := rfl

theorem bind_assoc {α β γ : Type} (p : Program α) (f : α → Program β) (g : β → Program γ) :
    (p.bind f).bind g = p.bind fun a => (f a).bind g := by
  induction p with
  | done a => rfl
  | perform e next ih => simp only [bind, ih]

end Program

end CellReplay
