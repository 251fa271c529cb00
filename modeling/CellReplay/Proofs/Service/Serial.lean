import CellReplay.Proofs.Service.Completion
import CellReplay.Proofs.Service.Launch
import CellReplay.Proofs.Service.Meaning

/-!
# Proofs.Service.Serial

Calls that are executed together come to what they come to one after the other, in the order in which
they get the locks of their sessions.

* `inTurn`               — programs one after the other.
* `Crew.Sound.in_order`  — a crew that has ended, and the order in which its programs got their locks.
* `executed_in_turn`     — the calls of a service.
-/

namespace CellReplay

variable {ε α : Type}

/-- A program that has been run, with what it came to and the program calls that it made. -/
structure Ran (α : Type) where
  task : Nat
  value : Option α
  calls : List Call

/-- Some of the programs one after the other, each with the world to itself. -/
def inTurn (o : Surroundings ε) (ps : List (Program α)) :
    List Nat → World ε → List (Ran α) × World ε
  | [], w => ([], w)
  | i :: is, w =>
    match ps[i]? with
    | none => inTurn o ps is w
    | some p =>
      let (a, w₁) := p.exec o i w
      let (rs, w₂) := inTurn o ps is w₁
      (⟨i, a, w₁.calls.drop w.calls.length⟩ :: rs, w₂)

section

variable {E : Setting} {M : Nat → Meaning α} {σ : Sessions} {o : Surroundings ε} {m : MemoryStore}

variable (M) in
def predicted : Sessions → List Nat → List (Ran α)
  | _, [] => []
  | σ, i :: is => ⟨i, some ((M i).value σ), (M i).calls σ⟩ :: predicted ((M i).after σ) is

theorem task_predicted (is : List Nat) : (predicted M σ is).map (·.task) = is := by
  induction is generalizing σ with
  | nil => rfl
  | cons i is ih => rw [predicted, List.map_cons, ih]

theorem mem_predicted {is : List Nat} {r : Ran α} (h : r ∈ predicted M σ is) :
    ∃ before later, is = before ++ r.task :: later ∧
      r.value = some ((M r.task).value (past M σ before)) ∧
        r.calls = (M r.task).calls (past M σ before) := by
  induction is generalizing σ with
  | nil => cases h
  | cons i is ih =>
    rcases List.mem_cons.mp h with rfl | h
    · exact ⟨[], is, rfl, rfl, rfl⟩
    · obtain ⟨before, later, rfl, hvalue, hcalls⟩ := ih h
      exact ⟨i :: before, later, rfl, hvalue, hcalls⟩

theorem inTurn_eq (ho : o.Steady E) {ps : List (Program α)}
    (hof : ∀ i p, ps[i]? = some p → (M i).Of E p) (is : List Nat) (his : ∀ i ∈ is, i < ps.length)
    {w : World ε} (hw : w.Meets E m) (hfree : w.locks.Unused) :
    ∃ w' m', inTurn o ps is w = (predicted M m.sessions.get? is, w') ∧ w'.Meets E m' ∧
      m'.sessions.get? = past M m.sessions.get? is := by
  induction is generalizing w m with
  | nil => exact ⟨w, m, rfl, hw, rfl⟩
  | cons i is ih =>
    have hp := List.getElem?_eq_getElem (his i List.mem_cons_self)
    obtain ⟨w₁, m₁, hexec, hw₁, hfree₁, hcalls, hsessions⟩ := Meaning.exec ho i (hof i _ hp) hw hfree
    obtain ⟨w', m', hrest, hw', hsessions'⟩ :=
      ih (fun j hj => his j (List.mem_cons_of_mem i hj)) hw₁ hfree₁
    refine ⟨w', m', ?_, hw', ?_⟩
    · simp only [inTurn, hp, hexec, hrest, predicted, hcalls, List.drop_left, hsessions]
    · rw [hsessions', hsessions]
      rfl

end

/-! ## Crews that have ended -/

namespace Crew.Sound

variable {E : Setting} {M : Nat → Meaning α} {σ₀ : Sessions} {o : Surroundings ε} {c : Crew ε α}
  {m : MemoryStore}

theorem stage_done {l : SessionLocks Nat} {σ : Sessions} {as : List Nat} {made : List Call} {i : Nat}
    {a : α} (h : Stage E M σ₀ l σ as made i (.done a)) :
    (∀ k, ¬ l.Holder i k) ∧ (M i = .free made a ∨ ∃ k turn before later, M i = .bound k turn ∧
      as = before ++ i :: later ∧ a = (M i).value (past M σ₀ before) ∧
        made = (M i).calls (past M σ₀ before)) := by
  have hdone {held : Option SessionKey} {x y : Option Session} {calls : List Call} {b : α}
      (h : Follows E held (.done a) x calls b y) : held = none ∧ calls = [] ∧ a = b := by
    cases h with
    | done => exact ⟨rfl, rfl, rfl⟩
  cases h with
  | ahead _ _ _ _ hp => cases hp
  | inside _ _ _ _ _ hp => exact nomatch (hdone hp).1
  | behind hM ha hl hmade hp =>
    obtain ⟨-, -, ha'⟩ := hdone hp
    exact ⟨hl, .inr ⟨_, _, _, _, hM, ha, by rw [ha', hM]; rfl, by rw [hmade, hM]; rfl⟩⟩
  | free hM hl hmade hp =>
    obtain ⟨-, rfl, rfl⟩ := hdone hp
    exact ⟨hl, .inl (by rw [hM, ← hmade, List.append_nil])⟩

theorem exists_done (h : c.Ended) {i : Nat} (hi : i < c.programs.length) :
    ∃ a, c.programs[i]? = some (.done a) := by
  have hp := List.getElem?_eq_getElem hi
  have hv := h _ (List.getElem_mem hi)
  rw [hp]
  cases hd : c.programs[i] with
  | done a => exact ⟨a, rfl⟩
  | perform e next => rw [hd] at hv; cases hv

/-- What is stored is what the programs that had locks have left, one after the other. -/
theorem sessions_ended (h : c.Sound E M σ₀ m) (hend : c.Ended) :
    m.sessions.get? = past M σ₀ (acquired c.log) := by
  funext k
  refine h.resting k ?_
  rintro i ⟨d, hd, rfl, hk, hh⟩
  obtain ⟨a, ha⟩ := exists_done hend (h.claims d hd).lt
  exact (stage_done (h.stages _ _ ha)).1 k ⟨d, hd, rfl, hk, hh⟩

/-- The programs in the order in which they got their locks, and behind them those without one. -/
def order (M : Nat → Meaning α) (c : Crew ε α) : List Nat :=
  acquired c.log ++ (List.range c.programs.length).filter fun i => (M i).key? = none

theorem order_perm (h : c.Sound E M σ₀ m) (hend : c.Ended) :
    (order M c).Perm (List.range c.programs.length) := by
  have hnodup : (order M c).Nodup := by
    refine List.nodup_append.mpr ⟨h.nodup, List.nodup_range.filter _, fun a ha b hb hab => ?_⟩
    rw [← hab] at hb
    exact (h.bound a ha).2 (of_decide_eq_true (List.mem_filter.mp hb).2)
  refine (List.perm_ext_iff_of_nodup hnodup List.nodup_range).mpr fun i => ?_
  rw [order, List.mem_append, List.mem_filter, List.mem_range, decide_eq_true_eq]
  constructor
  · rintro (hi | hi)
    · exact (h.bound i hi).1
    · exact hi.1
  · intro hi
    obtain ⟨a, ha⟩ := exists_done hend hi
    rcases (stage_done (h.stages i _ ha)).2 with hM | ⟨k, turn, before, later, -, has, -⟩
    · exact .inr ⟨hi, by rw [hM]; rfl⟩
    · exact .inl (by rw [has]; simp)

/-- Every program has come to what it comes to in that order. -/
theorem in_order (h : c.Sound E M σ₀ m) (hend : c.Ended) {r : Ran α}
    (hr : r ∈ predicted M σ₀ (order M c)) :
    ∃ a, r.value = some a ∧ c.programs[r.task]? = some (.done a) ∧
      r.calls = callsOf r.task c.log := by
  obtain ⟨before, later, horder, hvalue, hcalls⟩ := mem_predicted hr
  have hperm := h.order_perm hend
  have hi : r.task < c.programs.length :=
    List.mem_range.mp (hperm.mem_iff.mp (by rw [horder]; simp))
  obtain ⟨a, ha⟩ := exists_done hend hi
  refine ⟨a, ?_⟩
  rcases (stage_done (h.stages _ _ ha)).2 with hM | ⟨k, turn, before', later', -, has, hv, hc⟩
  · rw [hvalue, hcalls, hM]
    exact ⟨rfl, ha, rfl⟩
  · -- a program stands in one place of the order only
    have hnodup : (order M c).Nodup := hperm.nodup_iff.mpr List.nodup_range
    have hbefore : before = before' := by
      rw [order, has, List.append_assoc, List.cons_append] at horder
      rw [order, has, List.append_assoc, List.cons_append] at hnodup
      have honce := (List.nodup_cons.mp (List.nodup_middle.mp hnodup)).1
      rw [List.mem_append, not_or] at honce
      exact ((List.append_cons_inj_of_notMem honce.1 honce.2).mp horder).1.symm
    rw [hvalue, hcalls, hbefore, ← hv, ← hc]
    exact ⟨rfl, ha, rfl⟩

theorem calls_in_order (h : c.Sound E M σ₀ m) (hend : c.Ended) (k : SessionKey) :
    callsAmong (fun i => (M i).key? = some k) c.log =
      ((predicted M σ₀ (order M c)).filter fun r => (M r.task).key? = some k).flatMap (·.calls) := by
  have htasks :
      ((predicted M σ₀ (order M c)).filter fun r => (M r.task).key? = some k).flatMap (·.calls) =
        ((order M c).filter fun i => (M i).key? = some k).flatMap (callsOf · c.log) := by
    have hmap : (predicted M σ₀ (order M c)).map (·.task) = order M c := task_predicted _
    rw [← hmap, List.filter_map, List.flatMap_map, hmap]
    refine List.flatMap_congr fun r hr => ?_
    obtain ⟨a, -, -, hcalls⟩ := h.in_order hend (List.mem_filter.mp hr).1
    exact hcalls
  have hothers : (((List.range c.programs.length).filter fun i => (M i).key? = none).filter
      fun i => (M i).key? = some k) = [] := by
    refine List.filter_eq_nil_iff.mpr fun i hi => ?_
    rw [of_decide_eq_true (List.mem_filter.mp hi).2]
    simp
  rw [h.calls k, htasks, order, List.filter_append, hothers, List.append_nil]

end Crew.Sound

theorem flatMap_filter_congr {β γ : Type} {p q : β → Bool} {f : β → List γ} {l : List β}
    (h : ∀ x ∈ l, p x ≠ q x → f x = []) : (l.filter p).flatMap f = (l.filter q).flatMap f := by
  induction l with
  | nil => rfl
  | cons x l ih =>
    have hl := ih fun y hy => h y (List.mem_cons_of_mem x hy)
    have hx := h x List.mem_cons_self
    rw [List.filter_cons, List.filter_cons]
    cases hp : p x <;> cases hq : q x <;> simp_all

/-! ## Calls of a service -/

namespace Service

abbrev Cells := List (String × Option String)

/-- The calls that execute some cells, before any of them has begun. -/
def crew (s : Service) (cells : Cells) (w : World ε) : Crew ε Reply :=
  ⟨cells.map fun (raw, field) => s.execute raw field, w, []⟩

def asked (s : Service) (cells : Cells) (i : Nat) : Option SessionKey := do
  let (raw, field) ← cells[i]?
  let r ← s.classifier.classify raw field
  return ⟨r.language, ← r.target?⟩

def meanings (s : Service) (E : Setting) (cells : Cells) (i : Nat) : Meaning Reply :=
  match cells[i]? with
  | some (raw, field) => s.meaning E raw field
  | none => .free [] (rejected s.classifier.source)

end Service

theorem meanings_of {E : Setting} (hnamed : ∀ n c, E.contexts n = some c → c.name = n) (s : Service)
    {cells : Service.Cells} {w : World ε} {i : Nat} {p : Program Reply}
    (hp : (s.crew cells w).programs[i]? = some p) : (s.meanings E cells i).Of E p := by
  rw [Service.crew, List.getElem?_map] at hp
  obtain ⟨⟨raw, field⟩, hcell, rfl⟩ := Option.map_eq_some_iff.mp hp
  rw [Service.meanings, hcell]
  exact meaning_execute hnamed s raw field

/-- A call that asks for a session and does not get its lock makes no program call. -/
theorem asked_iff {E : Setting} (hnamed : ∀ n c, E.contexts n = some c → c.name = n) (s : Service)
    (cells : Service.Cells) (i : Nat) :
    (s.meanings E cells i).key? = s.asked cells i ∨ ∃ a, s.meanings E cells i = .free [] a := by
  unfold Service.meanings Service.asked
  cases cells[i]? with
  | none => exact .inr ⟨_, rfl⟩
  | some cell =>
    obtain ⟨raw, field⟩ := cell
    simp only [Service.meaning, bind, Option.bind, pure]
    cases s.classifier.classify raw field with
    | none => exact .inr ⟨_, rfl⟩
    | some r =>
      dsimp only
      cases hc : E.contexts r.language with
      | none => exact .inr ⟨_, rfl⟩
      | some c =>
        dsimp only
        cases r.target? with
        | some i => exact .inl (by rw [← hnamed _ _ hc]; rfl)
        | none =>
          cases r.refusal? with
          | some a => exact .inr ⟨_, rfl⟩
          | none =>
            refine .inl ?_
            unfold Service.alone
            dsimp only
            cases E.kinds c <;> rfl

/-- What stays as it is while calls run in a world with the contexts of `m`. -/
def World.setting (w : World ε) (m : MemoryStore) (isThere : String → Bool)
    (outcome : Call → Outcome) : Setting :=
  ⟨m.contexts.get?, isThere, fun c => (w.registry.resolve isThere c).1.map (·.kind), outcome⟩

/-- A call that asks for a session and is refused makes no program call. -/
theorem Crew.Sound.callsOf_of_unasked {E : Setting}
    (hnamed : ∀ n c, E.contexts n = some c → c.name = n) {s : Service} {cells : Service.Cells}
    {c : Crew ε Reply} {σ₀ : Sessions} {m : MemoryStore} (h : c.Sound E (s.meanings E cells) σ₀ m)
    (hend : c.Ended) (hlength : c.programs.length = cells.length) {i : Nat}
    (hne : s.asked cells i ≠ (s.meanings E cells i).key?) : callsOf i c.log = [] := by
  rcases asked_iff hnamed s cells i with heq | ⟨a, hM⟩
  · exact absurd heq.symm hne
  · have hi : i < c.programs.length := by
      rw [hlength]
      refine Nat.lt_of_not_le fun hle => hne ?_
      rw [hM, Service.asked, List.getElem?_eq_none hle]
      rfl
    obtain ⟨b, hb⟩ := exists_done hend hi
    rcases (stage_done (h.stages i _ hb)).2 with hM' | ⟨_, _, _, _, hM', -⟩
    · rw [hM] at hM'
      exact (Meaning.free.inj hM').1.symm
    · rw [hM] at hM'
      cases hM'

/-- Calls that take turns in any order can always go on until all have ended. They come to what they
come to one after the other, in an order in which those of one session follow each other as they got
its lock: the replies, the program calls, those of each session in their order, and what is stored. -/
theorem executed_in_turn (o : Surroundings ε) (isThere : String → Bool) (outcome : Call → Outcome)
    (hthere : ∀ x path, o.isThere x path = isThere path)
    (hrun : ∀ x call, (o.run x call).1 = outcome call) (s : Service) (cells : Service.Cells)
    {w : World ε} {m : MemoryStore} (hstore : w.store.Holds m) (hplanned : w.faults.planned = [])
    (hlocks : w.locks.Coherent) (hfree : w.locks.Unused) (schedule : List Nat) :
    let c := (s.crew cells w).run o schedule
    (∃ more, (c.run o more).Ended) ∧ (c.Ended →
      ∃ order : List Nat, order.Perm (List.range cells.length) ∧ (acquired c.log).Sublist order ∧
        let serial := inTurn o (s.crew cells w).programs order w
        serial.1.map (·.task) = order ∧
        (∀ r ∈ serial.1, ∃ a, r.value = some a ∧ c.programs[r.task]? = some (.done a) ∧
          r.calls = callsOf r.task c.log) ∧
        (∀ k, callsAmong (fun i => s.asked cells i = some k) c.log =
          (serial.1.filter fun r => s.asked cells r.task = some k).flatMap (·.calls)) ∧
        c.world.store.SameAs serial.2.store) := by
  intro c
  let E : Setting := w.setting m isThere outcome
  have ho : o.Steady E := ⟨hthere, hrun⟩
  have hnamed : ∀ n c, E.contexts n = some c → c.name = n := hstore.keyed.contexts
  have hw : w.Meets E m := ⟨hplanned, hstore, fun _ => rfl, fun _ _ => rfl⟩
  have hof : ∀ i p, (s.crew cells w).programs[i]? = some p → (s.meanings E cells i).Of E p :=
    fun i p hp => meanings_of hnamed s hp
  have hstart : (s.crew cells w).Sound E (s.meanings E cells) m.sessions.get? m :=
    Crew.Sound.start hof hw hlocks hfree
  obtain ⟨m₁, h⟩ : ∃ m₁, c.Sound E (s.meanings E cells) m.sessions.get? m₁ := hstart.run ho schedule
  refine ⟨h.completes ho, fun hend => ?_⟩
  have hperm := h.order_perm hend
  have hlength : c.programs.length = (s.crew cells w).programs.length := Crew.length_run o _ schedule
  have hcells : c.programs.length = cells.length := hlength.trans (List.length_map _)
  -- one after the other: those that had a lock as they got it, then those that needed none
  obtain ⟨w₂, m₂, hturn, hw₂, hsessions⟩ := inTurn_eq ho hof
    (Crew.Sound.order (s.meanings E cells) c)
    (fun i hi => hlength ▸ List.mem_range.mp (hperm.mem_iff.mp hi)) hw hfree
  refine ⟨Crew.Sound.order (s.meanings E cells) c, by rw [← hcells]; exact hperm,
    List.sublist_append_left _ _, ?_⟩
  simp only [hturn]
  refine ⟨task_predicted _, fun r hr => h.in_order hend hr, fun k => ?_, ?_⟩
  · -- what a cell asks for and what its program locks differ only where nothing is launched
    have hsilent (i : Nat)
        (hne : decide (s.asked cells i = some k) ≠ decide ((s.meanings E cells i).key? = some k)) :
        callsOf i c.log = [] :=
      h.callsOf_of_unasked hnamed hend hcells fun heq => hne (by rw [heq])
    rw [callsAmong_congr hsilent, h.calls_in_order hend k]
    refine (flatMap_filter_congr fun r hr hne => ?_).symm
    obtain ⟨-, -, -, hcalls⟩ := h.in_order hend hr
    rw [hcalls]
    exact hsilent r.task hne
  · refine Store.sameAs_of_get? h.meets.store hw₂.store (fun n => ?_) fun k => ?_
    · rw [h.meets.contexts, hw₂.contexts]
    · -- the programs behind in the order have no session, and change none
      rw [h.sessions_ended hend, hsessions, Crew.Sound.order, past_append]
      refine (past_others (fun i hi => ?_) _).symm
      rw [of_decide_eq_true (List.mem_filter.mp hi).2]
      exact (Option.some_ne_none k).symm

/-- Two cells for one session that is not there yet, and one for none. -/
def pairCells : Service.Cells :=
  [("%shell a=1", some "1"), ("%shell b=2", some " 1 "), ("%shell date", none)]

def pairService : Service := ⟨.ofPattern (some "%[a-z]+ .*"), .empty⟩

def pairWorld : World Unit :=
  .new (.memory (MemoryStore.empty.saveContext ⟨"shell", "/bin/sh"⟩)) Registry.builtin .none ()

/-- Both calls look for the session before either has made it, and the second gets the lock. -/
def pairSchedule : List Nat := (List.replicate 17 [1, 0, 2]).flatten

theorem executed_in_turn_pair :
    ((pairService.crew pairCells pairWorld).run silent pairSchedule).Ended ∧
      acquired ((pairService.crew pairCells pairWorld).run silent pairSchedule).log = [1, 0] ∧
      ∃ order : List Nat, order.Perm (List.range 3) ∧ [1, 0].Sublist order ∧
        ((pairService.crew pairCells pairWorld).run silent pairSchedule).world.store.SameAs
          (inTurn silent (pairService.crew pairCells pairWorld).programs order pairWorld).2.store := by
  have hend : ((pairService.crew pairCells pairWorld).run silent pairSchedule).Ended :=
    Crew.ended_of_all (by decide +kernel)
  have hacquired :
      acquired ((pairService.crew pairCells pairWorld).run silent pairSchedule).log = [1, 0] := by
    decide +kernel
  obtain ⟨-, hserial⟩ := executed_in_turn silent (fun _ => true)
    (fun _ => .ok ⟨some 0, ""⟩) (fun _ _ => rfl) (fun _ _ => rfl) pairService pairCells
    (w := pairWorld) (m := MemoryStore.empty.saveContext ⟨"shell", "/bin/sh"⟩)
    ⟨rfl, MemoryStore.keyed_saveContext MemoryStore.keyed_empty _⟩ rfl SessionLocks.coherent_empty rfl
    pairSchedule
  obtain ⟨order, hperm, hsub, -, -, -, hstore⟩ := hserial hend
  rw [hacquired] at hsub
  exact ⟨hend, hacquired, order, hperm, hsub, hstore⟩

end CellReplay
