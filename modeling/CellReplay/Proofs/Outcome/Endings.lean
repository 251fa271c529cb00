import CellReplay.Outcome
import CellReplay.Proofs.Text.Spelled

/-!
# Proofs.Outcome.Endings

What a caller is told tells how the program ended, whatever the program printed.

* `Ending`            — the ways in which running a program ends, each with what belongs to it.
* `Outcome.ending`    — the ending of an outcome. Output counts without the blanks at its ends.
* `Ending.announcement`, `Ending.rest` — a message says first in which way it ended, and then the rest.
* `Manner.eq_of_announced` — no announcement is the beginning of another one.
* `decimalInt_append_inj` — where the digits of a number end is seen from what comes behind them.
* `ofOutcome_eq_iff`  — two outcomes are told alike exactly if they have the same ending.
-/

namespace CellReplay

open Text

namespace Text

theorem decimalInt_inj {m n : Int} (h : (decimalInt m).toList = (decimalInt n).toList) : m = n := by
  have hm := spelled_decimalInt m
  rw [h] at hm
  exact spelled_unique hm (spelled_decimalInt n)

/-- A character that numbers are written with. -/
def isNumeric (c : Char) : Bool := c = '-' || c = '+' || c.isDigit

theorem isNumeric_decimalInt (n : Int) : ∀ c ∈ (decimalInt n).toList, isNumeric c = true := by
  intro c hc
  rcases (spelled_decimalInt n).sign_or_digit c hc with rfl | rfl | hdigit
  · rfl
  · rfl
  · simp [isNumeric, hdigit]

theorem decimalInt_append_inj {m n : Int} {cs ds : List Char}
    (hcs : ∀ c ∈ cs.head?, isNumeric c = false) (hds : ∀ c ∈ ds.head?, isNumeric c = false)
    (h : (decimalInt m).toList ++ cs = (decimalInt n).toList ++ ds) : m = n ∧ cs = ds := by
  have htake (k : Int) {es : List Char} (hes : ∀ c ∈ es.head?, isNumeric c = false) :
      ((decimalInt k).toList ++ es).takeWhile isNumeric = (decimalInt k).toList := by
    rw [List.takeWhile_append_of_pos (isNumeric_decimalInt k)]
    cases es with
    | nil => exact List.append_nil _
    | cons c es => rw [List.takeWhile_cons_of_neg (by simp [hes c rfl]), List.append_nil]
  have hnumber : (decimalInt m).toList = (decimalInt n).toList := by
    rw [← htake m hcs, h, htake n hds]
  rw [hnumber] at h
  exact ⟨decimalInt_inj hnumber, List.append_cancel_left h⟩

end Text

/-! ## Endings -/

/-- How running a program ended, with what belongs to it. -/
inductive Ending
  | clean (output : String)
  | failed (code : Int) (output : String)
  | signalled (output : String)
  | timedOut (ms : Int)
  | notSpawned (reason : String)
  | broken (reason : String)
  deriving DecidableEq, Repr

def Outcome.ending : Outcome → Ending
  | .ok ⟨some code, output⟩ => if code = 0 then .clean (trimmed output) else .failed code (trimmed output)
  | .ok ⟨none, output⟩ => .signalled (trimmed output)
  | .error (.timeout ms) => .timedOut ms
  | .error (.spawnFailed reason) => .notSpawned reason
  | .error (.io reason) => .broken reason

inductive Manner
  | clean
  | failed
  | signalled
  | timedOut
  | notSpawned
  | broken
  deriving DecidableEq, Repr

namespace Manner

open Interpretation

/-- What a message begins with; output that is delivered begins with nothing. -/
def announcement : Manner → String
  | clean => ""
  | failed => executionError ++ "process exited with status "
  | signalled => executionError ++ "process was terminated by a signal"
  | timedOut => executionError ++ "process timed out after "
  | notSpawned => launchError ++ "Spawn failed: "
  | broken => launchError ++ "IO error: "

theorem eq_of_begins {m n : Manner} (hm : m ≠ clean) (hn : n ≠ clean)
    (h : m.announcement.toList <+: n.announcement.toList) : m = n := by
  revert hm hn h
  cases m <;> cases n <;> simp [announcement, executionError, launchError]

/-- No announcement is the beginning of another one. -/
theorem eq_of_announced {m n : Manner} (hm : m ≠ clean) (hn : n ≠ clean) {cs ds : List Char}
    (h : m.announcement.toList ++ cs = n.announcement.toList ++ ds) : m = n := by
  have hleft : m.announcement.toList <+: n.announcement.toList ++ ds := ⟨cs, h⟩
  rcases List.prefix_or_prefix_of_prefix hleft (List.prefix_append _ ds) with hprefix | hprefix
  · exact eq_of_begins hm hn hprefix
  · exact (eq_of_begins hn hm hprefix).symm

end Manner

namespace Ending

def manner : Ending → Manner
  | clean _ => .clean
  | failed _ _ => .failed
  | signalled _ => .signalled
  | timedOut _ => .timedOut
  | notSpawned _ => .notSpawned
  | broken _ => .broken

/-- Output stands on lines of its own. -/
def captured (output : String) : String := if output = "" then "" else "\n" ++ output

/-- What a message says behind its announcement. -/
def rest : Ending → String
  | clean output => output
  | failed code output => decimalInt code ++ captured output
  | signalled output => captured output
  | timedOut ms => decimalInt ms ++ "ms"
  | notSpawned reason => reason
  | broken reason => reason

def interpretation (e : Ending) : Interpretation :=
  ⟨e.manner = .clean, ⟨if e.manner = .clean then .result else .error,
    e.manner.announcement ++ e.rest⟩⟩

theorem head?_captured (output : String) :
    ∀ c ∈ (captured output).toList.head?, isNumeric c = false := by
  intro c hc
  unfold captured at hc
  split at hc
  · cases hc
  · rw [String.toList_append] at hc
    cases hc
    rfl

theorem captured_inj {output output' : String} (h : captured output = captured output') :
    output = output' := by
  have hne (s : String) : "\n" ++ s ≠ "" := fun h => by simpa using congrArg String.toList h
  unfold captured at h
  split at h <;> split at h
  · next h₁ h₂ => rw [h₁, h₂]
  · exact absurd h.symm (hne _)
  · exact absurd h (hne _)
  · rw [← String.toList_inj, String.toList_append, String.toList_append] at h
    exact String.toList_inj.mp (List.append_cancel_left h)

/-- Within one manner of ending, what is said behind the announcement says the rest. -/
theorem eq_of_rest {e e' : Ending} (hmanner : e.manner = e'.manner) (h : e.rest = e'.rest) :
    e = e' := by
  have hlist := congrArg String.toList h
  cases e <;> cases e' <;> try cases hmanner
  case clean.clean => exact congrArg clean h
  case failed.failed =>
    rw [rest, rest, String.toList_append, String.toList_append] at hlist
    obtain ⟨rfl, hcaptured⟩ := decimalInt_append_inj (head?_captured _) (head?_captured _) hlist
    rw [captured_inj (String.toList_inj.mp hcaptured)]
  case signalled.signalled => exact congrArg signalled (captured_inj h)
  case timedOut.timedOut =>
    rw [rest, rest, String.toList_append, String.toList_append] at hlist
    have hunit : ∀ c ∈ "ms".toList.head?, isNumeric c = false := by
      intro c hc
      cases hc
      rfl
    rw [(decimalInt_append_inj hunit hunit hlist).1]
  case notSpawned.notSpawned => exact congrArg notSpawned h
  case broken.broken => exact congrArg broken h

theorem interpretation_inj {e e' : Ending} (h : e.interpretation = e'.interpretation) : e = e' := by
  have hclean : e.manner = .clean ↔ e'.manner = .clean := by
    simpa [interpretation] using congrArg Interpretation.completed h
  have htext : e.manner.announcement ++ e.rest = e'.manner.announcement ++ e'.rest :=
    congrArg (·.reply.content) h
  rw [← String.toList_inj, String.toList_append, String.toList_append] at htext
  have hmanner : e.manner = e'.manner := by
    by_cases hc : e.manner = .clean
    · rw [hc, hclean.mp hc]
    · exact Manner.eq_of_announced hc (mt hclean.mpr hc) htext
  rw [hmanner] at htext
  exact eq_of_rest hmanner (String.toList_inj.mp (List.append_cancel_left htext))

end Ending

namespace Interpretation

theorem interpretation_of_unclean {e : Ending} (h : e.manner ≠ .clean) :
    e.interpretation = failed (e.manner.announcement ++ e.rest) := by
  rw [Ending.interpretation, decide_eq_false h, if_neg h, failed, Reply.error]

theorem ofOutcome_finished {f : Finished} (h : f.exitCode ≠ some 0) :
    ofOutcome (.ok f) =
      failed (executionError ++ ending f.exitCode ++ Ending.captured (trimmed f.output)) := by
  have hsuccess : f.success = false := decide_eq_false h
  simp only [ofOutcome, hsuccess, Bool.false_eq_true, if_false, Ending.captured, String.isEmpty_iff]
  split
  · rw [String.append_empty]
  · rw [← String.append_assoc]

theorem ofOutcome_eq (o : Outcome) : ofOutcome o = o.ending.interpretation := by
  rcases o with (ms | reason | reason) | ⟨_ | code, output⟩
  · have hunclean : (Ending.timedOut ms).manner ≠ .clean := nofun
    rw [Outcome.ending, interpretation_of_unclean hunclean]
    change failed (Manner.timedOut.announcement ++ decimalInt ms ++ "ms") = _
    rw [String.append_assoc]
    rfl
  · have hunclean : (Ending.notSpawned reason).manner ≠ .clean := nofun
    rw [Outcome.ending, interpretation_of_unclean hunclean]
    change failed (launchError ++ ("Spawn failed: " ++ reason)) = _
    rw [← String.append_assoc]
    rfl
  · have hunclean : (Ending.broken reason).manner ≠ .clean := nofun
    rw [Outcome.ending, interpretation_of_unclean hunclean]
    change failed (launchError ++ ("IO error: " ++ reason)) = _
    rw [← String.append_assoc]
    rfl
  · have hunclean : (Ending.signalled (trimmed output)).manner ≠ .clean := nofun
    rw [Outcome.ending, interpretation_of_unclean hunclean, ofOutcome_finished (by simp)]
    rfl
  · by_cases hcode : code = 0
    · rw [Outcome.ending, if_pos hcode, hcode]
      change _ = Interpretation.mk true ⟨.result, "" ++ trimmed output⟩
      rw [String.empty_append]
      rfl
    · have hunclean : (Ending.failed code (trimmed output)).manner ≠ .clean := nofun
      rw [Outcome.ending, if_neg hcode, interpretation_of_unclean hunclean,
        ofOutcome_finished (by simpa using hcode)]
      change failed (executionError ++ ("process exited with status " ++ decimalInt code) ++ _) = _
      rw [← String.append_assoc, String.append_assoc]
      rfl

/-- Two outcomes are told alike exactly if they ended in the same way with the same exit code, printed
the same but for blanks at the ends, and have the same reason or limit. An outcome counts as completed
exactly if it is a clean end, and exactly then its reply is a result. -/
theorem ofOutcome_eq_iff (o o' : Outcome) :
    (ofOutcome o = ofOutcome o' ↔ o.ending = o'.ending) ∧
      ((ofOutcome o).completed = true ↔ ∃ output, o.ending = .clean output) ∧
      ((ofOutcome o).completed = true ↔ (ofOutcome o).reply.kind = .result) := by
  rw [ofOutcome_eq, ofOutcome_eq]
  refine ⟨⟨Ending.interpretation_inj, congrArg _⟩, ?_, ?_⟩
  · cases o.ending <;> simp [Ending.interpretation, Ending.manner]
  · cases o.ending <;> simp [Ending.interpretation, Ending.manner]

/-- Output that reads like another message. -/
example : ofOutcome (.ok ⟨some 1, executionError ++ "process timed out after 5ms"⟩) ≠
    ofOutcome (.error (.timeout 5)) := by decide

end Interpretation

end CellReplay
