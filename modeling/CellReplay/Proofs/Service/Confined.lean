import CellReplay.Proofs.Service.Findings
import CellReplay.Proofs.Service.Isolation

/-!
# Proofs.Service.Confined

Settings keep to their language: what becomes of the cells of a language depends on its own two
properties, whatever else the properties say.

* `Properties.AgreeOn` — two tables of properties that say the same about a language.
* `Program.Alike`      — programs that do the same for all answers that a world can give.
* `execute_alike`      — the same cell under both tables.
* `Crew.Alike`         — the same crew under both, which every step keeps.
* `confined`           — cells one after the other, and cells in turns.
-/

namespace CellReplay

variable {ε α β : Type} {l : String} {p q : Properties}

/-! ## Settings -/

/-- Two tables say the same about a language. -/
structure Properties.AgreeOn (l : String) (p q : Properties) : Prop where
  timeout : p.get? ("interpreter." ++ l ++ ".timeout") = q.get? ("interpreter." ++ l ++ ".timeout")
  separator :
    p.get? ("interpreter." ++ l ++ ".separator") = q.get? ("interpreter." ++ l ++ ".separator")

/-- Of all properties in its scope, a language is asked for one by its full name. -/
theorem get?_settingsFor (p : Properties) (l name : String) :
    (p.settingsFor l).property name = p.get? ("interpreter." ++ l ++ "." ++ name) :=
  property_settingsFor ⟨.ofPattern none, p⟩ l name

namespace Properties.AgreeOn

variable (h : p.AgreeOn l q)

include h

theorem timeoutMs : (p.settingsFor l).timeoutMs = (q.settingsFor l).timeoutMs := by
  have htimeout := h.timeout
  rw [show ".timeout" = "." ++ "timeout" from rfl, ← String.append_assoc] at htimeout
  rw [Settings.timeoutMs, Settings.timeoutMs, get?_settingsFor, get?_settingsFor, htimeout]

theorem separatorOr (default : String) :
    (p.settingsFor l).separatorOr default = (q.settingsFor l).separatorOr default := by
  have hseparator := h.separator
  rw [show ".separator" = "." ++ "separator" from rfl, ← String.append_assoc] at hseparator
  rw [Settings.separatorOr, Settings.separatorOr, get?_settingsFor, get?_settingsFor, hseparator]

theorem call (kind : HandlerKind) (c : Context) (history : Option (List String)) (code : String) :
    kind.call c (p.settingsFor l) history code = kind.call c (q.settingsFor l) history code := by
  rw [HandlerKind.call, HandlerKind.call, h.timeoutMs, h.separatorOr]

end Properties.AgreeOn

/-! ## Programs -/

namespace Program

/-- Two programs that ask for the same effects and end in the same value, one with `P`, as long as
everything is found under its own name. -/
inductive Alike (P : α → Prop) : Program α → Program α → Prop
  | done {a : α} (h : P a) : Alike P (.done a) (.done a)
  | perform (e : Effect) {next next' : e.Answer → Program α}
      (h : ∀ x, Exchange.Honest ⟨e, x⟩ → Alike P (next x) (next' x)) :
      Alike P (.perform e next) (.perform e next')

variable {P : α → Prop} {Q : β → Prop} {r s : Program α}

theorem alike_refl (r : Program α) : Alike (fun _ => True) r r := by
  induction r with
  | done a => exact .done trivial
  | perform e next ih => exact .perform e fun x _ => ih x

theorem alike_ask {e : Effect} {f g : e.Answer → Program β}
    (h : ∀ x, Exchange.Honest ⟨e, x⟩ → Alike Q (f x) (g x)) :
    Alike Q ((ask e).bind f) ((ask e).bind g) := .perform e h

theorem Alike.bind {f g : α → Program β} (h : Alike P r s) (hf : ∀ a, P a → Alike Q (f a) (g a)) :
    Alike Q (r.bind f) (s.bind g) := by
  induction h with
  | done ha => exact hf _ ha
  | perform e _ ih => exact .perform e ih

theorem Alike.value? (h : Alike P r s) : r.value? = s.value? := by
  cases h <;> rfl

theorem Alike.exec_eq {o : Surroundings ε} {t : Nat} {w : World ε} (h : Alike P r s)
    (hw : w.store.Keyed) : r.exec o t w = s.exec o t w := by
  induction h generalizing w with
  | done _ => rfl
  | perform e _ ih =>
    rw [exec, exec]
    cases hx : w.answer o t e with
    | mk x w₁ =>
      cases x with
      | none => rfl
      | some x =>
        have hw₁ := (grows_answer (o := o) (t := t) hw e).keyed
        rw [hx] at hw₁
        exact ih x (honest_answer hw hx) hw₁

end Program

/-! ## Calls -/

section

open Program

variable (h : p.AgreeOn l q) (c : Classifier) {x : Context} (hx : x.name = l)

include h hx

theorem interpret_agree (history : Option (List String)) (code : String) :
    Service.interpret ⟨c, p⟩ x history code = Service.interpret ⟨c, q⟩ x history code := by
  subst hx
  refine congrArg (ask (.resolve x)).bind (funext fun found => ?_)
  cases found with
  | none => rfl
  | some handler => exact congrArg (fun call => (ask (.run call)).bind _) (h.call _ _ _ _)

theorem interpretIn_agree (y : Session) (r : Request) :
    Service.interpretIn ⟨c, p⟩ x y r = Service.interpretIn ⟨c, q⟩ x y r := by
  simp only [Service.interpretIn, interpret_agree h c hx]

theorem interpretSession_agree (i : SessionId) (r : Request) :
    Service.interpretSession ⟨c, p⟩ x i r = Service.interpretSession ⟨c, q⟩ x i r := by
  simp only [Service.interpretSession, Service.interpretLocked, interpretIn_agree h c hx]

theorem interpretAlone_agree (r : Request) :
    Service.interpretAlone ⟨c, p⟩ x r = Service.interpretAlone ⟨c, q⟩ x r := by
  simp only [Service.interpretAlone, interpret_agree h c hx]

omit hx

theorem tryDispatch_alike {r : Request} (hr : r.language = l) :
    Alike (fun _ => True) (Service.tryDispatch ⟨c, p⟩ r) (Service.tryDispatch ⟨c, q⟩ r) := by
  refine alike_ask fun found hfound => ?_
  rcases found with e | _ | x
  · exact alike_refl _
  · exact alike_refl _
  · -- the context is the one that was asked for, so its settings are those of the language
    have hx : x.name = l := Eq.trans hfound hr
    simp only [interpretAlone_agree h c hx, interpretSession_agree h c hx]
    exact alike_refl _

theorem dispatch_alike {r : Request} (hr : r.language = l) :
    Alike (fun _ => True) (Service.dispatch ⟨c, p⟩ r) (Service.dispatch ⟨c, q⟩ r) :=
  (tryDispatch_alike h c hr).bind fun _ _ => alike_refl _

omit h

/-- Classifying looks at no settings and leaves the language as it is. -/
theorem classify_alike {raw : String} {field : Option String}
    (hl : ∀ r, c.classify raw field = some r → r.language = l) :
    Alike (fun r? => ∀ r ∈ r?, r.language = l) (Service.classify ⟨c, p⟩ raw field)
      (Service.classify ⟨c, q⟩ raw field) := by
  unfold Service.classify
  cases hr : c.classify raw field with
  | none => exact .done fun _ hr => nomatch hr
  | some r =>
    have hsame {r' : Request} (hr' : r'.language = r.language) :
        ∀ y ∈ some r', y.language = l := by
      rintro _ ⟨⟩
      rw [hr', hl r hr]
    refine alike_ask fun found _ => ?_
    rcases found with e | _ | x
    · exact .done (hsame rfl)
    · exact .done (hsame rfl)
    · dsimp only
      split
      · exact .done (hsame rfl)
      · refine alike_ask fun found _ => ?_
        rcases found with e | y
        · exact .done (hsame rfl)
        · exact .done (hsame (r.confirm_language _))

include h

theorem execute_alike {raw : String} {field : Option String}
    (hl : ∀ r, c.classify raw field = some r → r.language = l) :
    Alike (fun _ => True) (Service.execute ⟨c, p⟩ raw field) (Service.execute ⟨c, q⟩ raw field) := by
  refine (classify_alike c hl).bind fun r? hr? => ?_
  cases r? with
  | none => exact alike_refl _
  | some r => exact (dispatch_alike h c (hr? r rfl)).bind fun _ _ => alike_refl _

end

/-! ## Runs -/

theorem executeAll_agree (h : p.AgreeOn l q) (o : Surroundings ε) (c : Classifier)
    {cells : Service.Cells}
    (hcells : ∀ cell ∈ cells, ∀ r, c.classify cell.1 cell.2 = some r → r.language = l)
    {w : World ε} (hw : w.store.Keyed) :
    Service.executeAll o ⟨c, p⟩ cells w = Service.executeAll o ⟨c, q⟩ cells w := by
  induction cells generalizing w with
  | nil => rfl
  | cons cell cells ih =>
    have hhead := execute_alike h c (hcells cell List.mem_cons_self)
    have hexec := hhead.exec_eq (o := o) (t := 0) hw
    have hrest := ih (fun x hx => hcells x (List.mem_cons_of_mem _ hx))
      (grows_exec (o := o) (t := 0) (Service.execute ⟨c, q⟩ cell.1 cell.2) hw).keyed
    simp only [Service.executeAll, hexec, hrest]

theorem isSome_reply_executeAll (o : Surroundings ε) (s : Service) (cells : Service.Cells)
    {w : World ε} (hw : w.locks.Unused) : ∀ a ∈ (s.executeAll o cells w).1, a.reply.isSome := by
  induction cells generalizing w with
  | nil => exact fun a ha => nomatch ha
  | cons cell cells ih =>
    obtain ⟨a, w₁, hexec, hway⟩ := Course.exec_execute o 0 s cell.1 cell.2 hw
    simp only [Service.executeAll, hexec]
    intro x hx
    rcases List.mem_cons.mp hx with rfl | hx
    · rfl
    · exact ih (hway.unused hw) x hx

namespace Crew

/-- The same crew of alike programs, as far as it has come. -/
structure Alike (c d : Crew ε α) : Prop where
  programs : ∀ i : Nat, Option.Rel (Program.Alike fun _ => True) c.programs[i]? d.programs[i]?
  world : c.world = d.world
  log : c.log = d.log

theorem grows_step (o : Surroundings ε) {c : Crew ε α} (hw : c.world.store.Keyed) (i : Nat) :
    c.world.store.Grows (c.step o i).world.store := by
  unfold step
  split
  · next e next hp =>
    have hanswer := grows_answer (o := o) (t := i) hw e
    split
    · next x w hx => rwa [hx] at hanswer
    · next w hx => rwa [hx] at hanswer
  · exact Store.grows_refl hw

variable {c d : Crew ε α}

theorem Alike.step (h : c.Alike d) (hw : c.world.store.Keyed) (o : Surroundings ε) (i : Nat) :
    (c.step o i).Alike (d.step o i) := by
  obtain ⟨ps, w, log⟩ := c
  obtain ⟨qs, _, _⟩ := d
  obtain ⟨hprograms, rfl, rfl⟩ := h
  have hi := hprograms i
  simp only [Crew.step]
  generalize hp : ps[i]? = p? at hi
  generalize hq : qs[i]? = q? at hi
  cases hi with
  | none => exact ⟨hprograms, rfl, rfl⟩
  | some halike =>
    cases halike with
    | done _ => exact ⟨hprograms, rfl, rfl⟩
    | perform e hnext =>
      dsimp only
      cases hx : w.answer o i e with
      | mk x w₁ =>
        cases x with
        | none => exact ⟨hprograms, rfl, rfl⟩
        | some x =>
          refine ⟨fun j => ?_, rfl, rfl⟩
          -- both programs go on behind the same answer, and the others stay
          dsimp only
          rw [List.getElem?_set, List.getElem?_set]
          split
          · have hlt := (List.getElem?_eq_some_iff.mp hp).1
            have hlt' := (List.getElem?_eq_some_iff.mp hq).1
            rw [if_pos hlt, if_pos hlt']
            exact .some (hnext x (honest_answer hw hx))
          · exact hprograms j

theorem Alike.run (h : c.Alike d) (hw : c.world.store.Keyed) (o : Surroundings ε)
    (schedule : List Nat) : (c.run o schedule).Alike (d.run o schedule) := by
  induction schedule generalizing c d with
  | nil => exact h
  | cons i schedule ih => exact ih (h.step hw o i) (grows_step o hw i).keyed

theorem Alike.values (h : c.Alike d) :
    c.programs.map (·.value?) = d.programs.map (·.value?) := by
  refine List.ext_getElem? fun i => ?_
  have hi := h.programs i
  rw [List.getElem?_map, List.getElem?_map]
  generalize c.programs[i]? = p?, d.programs[i]? = q? at hi
  cases hi with
  | none => rfl
  | some halike => exact congrArg some halike.value?

end Crew

theorem crew_alike (h : p.AgreeOn l q) (c : Classifier) {cells : Service.Cells}
    (hcells : ∀ cell ∈ cells, ∀ r, c.classify cell.1 cell.2 = some r → r.language = l)
    (w : World ε) : (Service.crew ⟨c, p⟩ cells w).Alike (Service.crew ⟨c, q⟩ cells w) := by
  refine ⟨fun i => ?_, rfl, rfl⟩
  simp only [Service.crew, List.getElem?_map]
  cases hcell : cells[i]? with
  | none => exact .none
  | some cell => exact .some (execute_alike h c (hcells cell (List.mem_of_getElem? hcell)))

/-- Under two tables of properties that have the same timeout and the same separator for a language,
its cells come to the same, in the whole of what happens: the replies, the program calls, and the
world with what is stored. So they do one after the other, when every call ends, and in turns, one effect
at a time and in any order. -/
theorem confined (o : Surroundings ε) (c : Classifier) (l : String) {p q : Properties}
    (htimeout :
      p.get? ("interpreter." ++ l ++ ".timeout") = q.get? ("interpreter." ++ l ++ ".timeout"))
    (hseparator :
      p.get? ("interpreter." ++ l ++ ".separator") = q.get? ("interpreter." ++ l ++ ".separator"))
    {w : World ε} (hw : w.store.Keyed) {cells : Service.Cells}
    (hcells : ∀ cell ∈ cells, ∀ r, c.classify cell.1 cell.2 = some r → r.language = l) :
    let s : Service := ⟨c, p⟩
    let t : Service := ⟨c, q⟩
    s.executeAll o cells w = t.executeAll o cells w ∧
      (w.locks.Unused → ∀ a ∈ (s.executeAll o cells w).1, a.reply.isSome) ∧
      ∀ schedule : List Nat,
        let d := (s.crew cells w).run o schedule
        let e := (t.crew cells w).run o schedule
        d.programs.map (·.value?) = e.programs.map (·.value?) ∧ d.log = e.log ∧ d.world = e.world := by
  intro s t
  have hagree : p.AgreeOn l q := ⟨htimeout, hseparator⟩
  refine ⟨executeAll_agree hagree o c hcells hw, isSome_reply_executeAll o s cells, ?_⟩
  intro schedule d e
  have halike : d.Alike e := (crew_alike hagree c hcells w).run hw o schedule
  exact ⟨halike.values, halike.log, halike.world⟩

/-- Properties of a language among those of languages with a longer and with a shorter name. -/
def shellAmong : Properties :=
  .ofList [("interpreter.sh.timeout", "1"), ("interpreter.shell.timeout", " 250 "),
    ("interpreter.shell.x.separator", ";")]

/-- The same for this language, and other things for all others. -/
def shellAlone : Properties :=
  .ofList [("interpreter.shell.timeout", " 250 "), ("interpreter.shell", "9"),
    ("interpreter.python.timeout", "2"), ("default.interpreter.name", "python")]

def shellCells : Service.Cells :=
  [("%shell a=1", some "1"), ("a=4", some "1"), ("%shell echo $a", some "+1")]

theorem confined_shell :
    let c : Classifier := pairService.classifier
    Service.executeAll echoing ⟨c, shellAmong⟩ shellCells pairWorld =
        Service.executeAll echoing ⟨c, shellAlone⟩ shellCells pairWorld ∧
      (Service.executeAll echoing ⟨c, shellAlone⟩ shellCells pairWorld).1.flatMap (·.calls) =
        [⟨"/bin/sh", ["-c", "a=1"], 250⟩, ⟨"/bin/sh", ["-c", "a=1\necho $a"], 250⟩] := by
  intro c
  have hcells : ∀ cell ∈ shellCells, ∀ r, c.classify cell.1 cell.2 = some r → r.language = "shell" := by
    decide +kernel
  obtain ⟨hsame, -, -⟩ := confined echoing c "shell" (p := shellAmong) (q := shellAlone)
    (by decide +kernel) (by decide +kernel) (w := pairWorld)
    (MemoryStore.keyed_saveContext MemoryStore.keyed_empty _) hcells
  exact ⟨hsame, by decide +kernel⟩

end CellReplay
