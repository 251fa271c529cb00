import CellReplay.Proofs.Service.Upshot

/-!
# Proofs.Service.Advice

What classification finds out about a session is advice that running the request does not depend on.

* `dispatch_status` — a request whose session is known and one whose session is new are the same
  program, but for the request that comes with the reply.
* `World.failing`   — a world in which the next call of an operation fails.
* `unhampered_of_failing` — a lookup that fails during classification hampers nothing behind it.
* `classification_advisory` — replies, program calls and stores are the same.
-/

namespace CellReplay

open Program

/-! ## Known and new sessions -/

theorem interpretLocked_status (s : Service) (c : Context) (k : SessionKey) (r : Request) :
    (s.interpretLocked c k { r with status := .noSessionId }).bind (fun a => done a.1) =
      (s.interpretLocked c k { r with status := .good }).bind fun a => done a.1 := by
  simp only [Service.interpretLocked, bind_eq, pure_eq, bind_assoc]
  congr 1
  funext x
  cases x with
  | error e => rfl
  | ok x =>
    -- the new session is promoted, which cannot fail, and only the code is looked at from there on
    simp only [Request.isNewSession, Request.promote, decide_true, if_true, reduceCtorEq, decide_false,
      Bool.false_eq_true, if_false, bind_assoc]

theorem interpretSession_status (s : Service) (c : Context) (i : SessionId) (r : Request) :
    (s.interpretSession c i { r with status := .noSessionId }).bind (fun a => done a.1) =
      (s.interpretSession c i { r with status := .good }).bind fun a => done a.1 := by
  have hlocked := congrArg
    (fun p => p.bind fun b => (ask (.release ⟨c.name, i⟩)).bind fun _ => done b)
    (interpretLocked_status s c ⟨c.name, i⟩ r)
  simp only [bind_assoc] at hlocked
  simp only [Service.interpretSession, bind_eq, pure_eq, bind_assoc]
  congr 1
  funext _
  exact hlocked

theorem tryDispatch_status (s : Service) (r : Request) :
    (s.tryDispatch { r with status := .noSessionId }).bind (fun a => done a.1) =
      (s.tryDispatch { r with status := .good }).bind fun a => done a.1 := by
  obtain ⟨language, code, id, status⟩ := r
  simp only [Service.tryDispatch, bind_eq, pure_eq, bind_assoc]
  congr 1
  funext x
  rcases x with e | _ | c
  · rfl
  · rfl
  · cases id with
    | none => rfl
    | some i => exact interpretSession_status s c i ⟨language, code, some i, status⟩

theorem dispatch_eq (s : Service) (r : Request) :
    (s.dispatch r).bind (fun a => done a.1) =
      ((s.tryDispatch r).bind fun a => done a.1).bind fun a => done (Course.replyOf a) := by
  simp only [Service.dispatch, bind_eq, pure_eq, bind_assoc]
  congr 1
  funext a
  obtain ⟨a, r⟩ := a
  cases a <;> rfl

theorem dispatch_status (s : Service) (r : Request) :
    (s.dispatch { r with status := .noSessionId }).bind (fun a => done a.1) =
      (s.dispatch { r with status := .good }).bind fun a => done a.1 := by
  rw [dispatch_eq, dispatch_eq, tryDispatch_status]

variable {ε : Type}

theorem exec_dispatch_fst (o : Surroundings ε) (t : Nat) (s : Service) (r : Request) (w : World ε) :
    ((s.dispatch r).bind fun a => done a.1).exec o t w =
      (((s.dispatch r).exec o t w).1.map Prod.fst, ((s.dispatch r).exec o t w).2) := by
  rw [exec_bind]
  rcases (s.dispatch r).exec o t w with ⟨_ | a, w'⟩ <;> rfl

/-! ## Lookups that fail -/

/-- The world in which the next call of an operation fails as well. -/
def World.failing (w : World ε) (m : Method) : World ε :=
  { w with faults := { w.faults with planned := (m, w.faults.count m) :: w.faults.planned } }

section

variable {w w' : World ε} {m m' m'' : Method} {s : Service} {raw : String} {field : Option String}

theorem next_failing (w : World ε) (m : Method) : ((w.failing m).faults.next m).isSome := by
  unfold Faults.next
  rw [if_pos]
  · rfl
  · exact List.mem_cons_self

theorem spent_failing (h : w.Calm) (hm : m' ≠ m) : (w.failing m).faults.Spent m' := by
  intro n hn
  rcases List.mem_cons.mp hn with heq | hn
  · exact absurd (congrArg Prod.fst heq) hm
  · exact h m' n hn

/-- Once the operation has been called, the failure is over. -/
theorem spent_counted_failing (h : w.Calm) (m m' : Method) :
    ((w.failing m).faults.counted m).Spent m' := by
  by_cases hm : m' = m
  · subst hm
    intro n hn
    have hcount : (w.failing m').faults.count m' = w.faults.count m' := rfl
    rw [Faults.count_counted, if_pos rfl, hcount]
    rcases List.mem_cons.mp hn with heq | hn
    · have hn : n = w.faults.count m' := congrArg Prod.snd heq
      omega
    · have hlt : n < w.faults.count m' := h m' n hn
      omega
  · exact (spent_failing h hm).counted m

theorem spent_counted_comm {f : Faults} (h : ((f.counted m).counted m').Spent m'') :
    ((f.counted m').counted m).Spent m'' := by
  intro n hn
  have hlt : n < ((f.counted m).counted m').count m'' := h n hn
  rw [Faults.count_counted, Faults.count_counted] at hlt ⊢
  omega

/-- Behind the classification, the one lookup that fails hampers nothing. -/
theorem unhampered_of_failing {r : Request} {lookup : Method}
    (hlookup : lookup = .findContext ∨ lookup = .findSession) (hw : w.Calm)
    (h : Course.Classified s raw field (w.failing lookup) (some r) w') : r.Unhampered w' := by
  rcases hlookup with rfl | rfl
  · refine unhampered_of_calm (fun m => ?_) r
    have hspent := spent_counted_failing hw .findContext m
    rcases h.faults_eq with ⟨hfaults, -⟩ | hfaults
    · rwa [hfaults]
    · rw [hfaults]
      exact hspent.counted _
  · rcases h.faults_eq with ⟨hfaults, hnever⟩ | hfaults
    · -- no session has been looked for, and the request will not look for one either
      have hcontext : (w.failing .findSession).faults.Spent .findContext := spent_failing hw nofun
      refine ⟨by rw [hfaults]; exact hcontext.counted _, fun c i hfound htarget => ?_⟩
      rw [h.store_eq, ← World.tryContext_of_spent hcontext] at hfound
      exact absurd htarget (hnever c i hfound)
    · refine unhampered_of_calm (fun m => ?_) r
      rw [hfaults]
      exact spent_counted_comm ((spent_counted_failing hw .findSession m).counted _)

end

/-- Whether the session of a request is known or new when the request is dispatched makes no
difference to the reply, the program calls and the store, whatever the store holds or refuses; and
neither does it make a difference to executing a cell if, while the cell is classified, the lookup of
the context fails, or that of the session. -/
theorem classification_advisory (o : Surroundings ε) (s : Service) :
    (∀ (r : Request) (w : World ε) (t : Nat),
      let known := (s.dispatch { r with status := .good }).exec o t w
      let new := (s.dispatch { r with status := .noSessionId }).exec o t w
      new.1.map Prod.fst = known.1.map Prod.fst ∧ (w.locks.Unused → known.1.isSome) ∧
        new.2 = known.2) ∧
    (∀ (raw : String) (field : Option String) (w : World ε), w.Calm → w.locks.Unused →
      ∀ lookup, lookup = Method.findContext ∨ lookup = Method.findSession →
        let smooth := (s.execute raw field).exec o 0 w
        let hampered := (s.execute raw field).exec o 0 (w.failing lookup)
        ((w.failing lookup).faults.next lookup).isSome ∧ smooth.1.isSome ∧
          hampered.1 = smooth.1 ∧ hampered.2.calls = smooth.2.calls ∧
            hampered.2.store = smooth.2.store) := by
  constructor
  · intro r w t
    have heq := congrArg (fun p => p.exec o t w) (dispatch_status s r)
    simp only [exec_dispatch_fst] at heq
    obtain ⟨hreply, hworld⟩ := Prod.mk.inj heq
    refine ⟨hreply, fun hl => ?_, hworld⟩
    obtain ⟨a, w', he, -⟩ := Course.exec_dispatch o t s { r with status := .good } hl
    rw [he]
    rfl
  · intro raw field w hw hl lookup hlookup
    obtain ⟨a, w₁, he, hu⟩ := exec_execute_calm o s raw field hl hw
    obtain ⟨b, w₂, he', hu'⟩ := exec_execute_upshot (w := w.failing lookup) o s raw field hl
      fun r w₂ hc => unhampered_of_failing hlookup hw hc
    -- neither what is stored nor the handlers depend on what is going to fail
    have hmeans : (w.failing lookup).means o = w.means o := rfl
    have hstore : (w.failing lookup).store = w.store := rfl
    have hcalls : (w.failing lookup).calls = w.calls := rfl
    rw [hmeans, hstore] at hu'
    simp only [he, he']
    refine ⟨next_failing w lookup, rfl, ?_, ?_, ?_⟩
    · rw [hu.answer, hu'.answer]
    · rw [hu.calls, hu'.calls, hcalls]
    · rw [hu.store, hu'.store]

/-- The session is new; if it cannot be looked for, it is taken for known, and made all the same. -/
theorem classification_advisory_new :
    let hampered := pairWorld.failing .findSession
    let cell : String × Option String := ("%shell a=1", some "1")
    pairWorld.Calm ∧ pairWorld.locks.Unused ∧
      ((pairService.classify cell.1 cell.2).exec silent 0 pairWorld).1.map (·.map (·.status)) =
        some (some .noSessionId) ∧
      ((pairService.classify cell.1 cell.2).exec silent 0 hampered).1.map (·.map (·.status)) =
        some (some .good) ∧
      ((pairService.execute cell.1 cell.2).exec silent 0 hampered).1 =
        ((pairService.execute cell.1 cell.2).exec silent 0 pairWorld).1 ∧
      ((pairService.execute cell.1 cell.2).exec silent 0 hampered).2.store =
        ((pairService.execute cell.1 cell.2).exec silent 0 pairWorld).2.store := by
  intro hampered cell
  have hcalm : pairWorld.Calm := fun _ _ h => absurd h List.not_mem_nil
  obtain ⟨-, -, hreply, -, hstore⟩ := (classification_advisory silent pairService).2 cell.1 cell.2
    pairWorld hcalm rfl .findSession (.inr rfl)
  exact ⟨hcalm, rfl, by decide +kernel, by decide +kernel, hreply, hstore⟩

end CellReplay
