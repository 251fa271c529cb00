import CellReplay.Proofs.Service.Serial

/-!
# Proofs.Service.Isolation

Sessions keep to themselves: what becomes of the cells of one session is the same with and without
the cells that are executed between them for other sessions or for none.

* `Service.addressed`  — the session that a cell is for.
* `Service.executeAll` — cells one after the other, with what each of them came to.
* `Meaning.Touches`    — a call reads and changes one session at most.
* `foreseen_filter`    — leaving out cells, as far as it can be said beforehand.
* `isolated`           — leaving out cells in a run.
-/

namespace CellReplay

variable {ε : Type}

/-! ## Cells one after the other -/

/-- What executing a cell came to, if the call ended, and the program calls that it made. -/
structure Answered where
  cell : String × Option String
  reply : Option Reply
  calls : List Call
  deriving DecidableEq, Repr

namespace Service

/-- The session that a cell is for, if the classifier takes the cell and it names one. -/
def addressed (s : Service) (cell : String × Option String) : Option SessionKey := do
  let r ← s.classifier.classify cell.1 cell.2
  return ⟨r.language, ← r.target?⟩

/-- Cells one after the other, each call with the world to itself. -/
def executeAll (o : Surroundings ε) (s : Service) : Cells → World ε → List Answered × World ε
  | [], w => ([], w)
  | cell :: cells, w =>
    let (a, w₁) := (s.execute cell.1 cell.2).exec o 0 w
    let (as, w₂) := s.executeAll o cells w₁
    (⟨cell, a, w₁.calls.drop w.calls.length⟩ :: as, w₂)

/-- The sessions after a cell. -/
def next (s : Service) (E : Setting) (σ : Sessions) (cell : String × Option String) : Sessions :=
  (s.meaning E cell.1 cell.2).after σ

/-- What cells are going to come to. -/
def foreseen (s : Service) (E : Setting) : Sessions → Cells → List Answered
  | _, [] => []
  | σ, cell :: cells =>
    let M := s.meaning E cell.1 cell.2
    ⟨cell, some (M.value σ), M.calls σ⟩ :: s.foreseen E (s.next E σ cell) cells

end Service

section

variable {E : Setting} {o : Surroundings ε} {s : Service} {σ τ : Sessions} {k : SessionKey}

theorem executeAll_eq (ho : o.Steady E) (hnamed : ∀ n c, E.contexts n = some c → c.name = n)
    (s : Service) (cells : Service.Cells) {w : World ε} {m : MemoryStore} (hw : w.Meets E m)
    (hfree : w.locks.Unused) :
    ∃ w' m', s.executeAll o cells w = (s.foreseen E m.sessions.get? cells, w') ∧ w'.Meets E m' ∧
      m'.sessions.get? = cells.foldl (s.next E) m.sessions.get? := by
  induction cells generalizing w m with
  | nil => exact ⟨w, m, rfl, hw, rfl⟩
  | cons cell cells ih =>
    have hof := meaning_execute hnamed s cell.1 cell.2
    obtain ⟨w₁, m₁, hexec, hw₁, hfree₁, hcalls, hsessions⟩ := Meaning.exec ho 0 hof hw hfree
    obtain ⟨w', m', hrest, hw', hsessions'⟩ := ih hw₁ hfree₁
    have hnext : m₁.sessions.get? = s.next E m.sessions.get? cell := hsessions
    refine ⟨w', m', ?_, hw', by rw [hsessions', hnext]; rfl⟩
    simp only [Service.executeAll, Service.foreseen, hexec, hrest, hcalls, List.drop_left, hnext]

/-! ## Leaving out cells -/

/-- A call for one session at most: what it comes to and what it makes of that session depends on
that session alone, and it changes no other. -/
structure Meaning.Touches {α : Type} (M : Meaning α) (k? : Option SessionKey) : Prop where
  value : ∀ k ∈ k?, ∀ σ τ : Sessions, σ k = τ k → M.value σ = M.value τ
  calls : ∀ k ∈ k?, ∀ σ τ : Sessions, σ k = τ k → M.calls σ = M.calls τ
  own : ∀ k ∈ k?, ∀ σ τ : Sessions, σ k = τ k → M.after σ k = M.after τ k
  other : ∀ k, k? ≠ some k → ∀ σ, M.after σ k = σ k

theorem touches_free {α : Type} (calls : List Call) (a : α) (k? : Option SessionKey) :
    (Meaning.free calls a).Touches k? where
  value _ _ _ _ _ := rfl
  calls _ _ _ _ _ := rfl
  own _ _ _ _ h := h
  other _ _ _ := rfl

theorem touches_bound {α : Type} (k : SessionKey) (turn : Option Session → Turn α) :
    (Meaning.bound k turn).Touches (some k) where
  value := by
    intro k' hk' σ τ h
    cases hk'
    simp only [Meaning.value, h]
  calls := by
    intro k' hk' σ τ h
    cases hk'
    simp only [Meaning.calls, h]
  own := by
    intro k' hk' σ τ h
    cases hk'
    simp only [Meaning.after, Sessions.put, h]
  other k' hk' σ := after_other (N := .bound k turn) hk' σ

/-- A cell touches the session that it is for, unless it is refused and touches none. -/
theorem touches_meaning (hnamed : ∀ n c, E.contexts n = some c → c.name = n) (s : Service)
    (cell : String × Option String) :
    (s.meaning E cell.1 cell.2).Touches (s.addressed cell) := by
  have hkey : (s.meaning E cell.1 cell.2).key? = s.addressed cell ∨
      ∃ a, s.meaning E cell.1 cell.2 = .free [] a := asked_iff hnamed s [cell] 0
  cases hM : s.meaning E cell.1 cell.2 with
  | free calls a => exact touches_free calls a _
  | bound k turn =>
    rw [hM] at hkey
    rcases hkey with hkey | ⟨a, ha⟩
    · rw [← hkey]
      exact touches_bound k turn
    · cases ha

variable (hnamed : ∀ n c, E.contexts n = some c → c.name = n)

include hnamed

/-- The cells of a session come to the same without the others, and leave the session the same. -/
theorem foreseen_filter (s : Service) (cells : Service.Cells) (h : σ k = τ k) :
    s.foreseen E τ (cells.filter fun cell => s.addressed cell = some k) =
        (s.foreseen E σ cells).filter (fun a => s.addressed a.cell = some k) ∧
      (cells.filter fun cell => s.addressed cell = some k).foldl (s.next E) τ k =
        cells.foldl (s.next E) σ k := by
  induction cells generalizing σ τ with
  | nil => exact ⟨rfl, h.symm⟩
  | cons cell cells ih =>
    have htouches := touches_meaning hnamed s cell
    by_cases hcell : s.addressed cell = some k
    · have hk : k ∈ s.addressed cell := hcell
      obtain ⟨hanswers, hsession⟩ := ih (htouches.own k hk σ τ h)
      rw [List.filter_cons_of_pos (by simpa using hcell)]
      constructor
      · simp only [Service.foreseen]
        rw [List.filter_cons_of_pos (by simpa using hcell), htouches.value k hk σ τ h,
          htouches.calls k hk σ τ h]
        exact congrArg _ hanswers
      · exact hsession
    · have hnext : s.next E σ cell k = τ k := (htouches.other k hcell σ).trans h
      obtain ⟨hanswers, hsession⟩ := ih hnext
      rw [List.filter_cons_of_neg (by simpa using hcell)]
      constructor
      · simp only [Service.foreseen]
        rw [List.filter_cons_of_neg (by simpa using hcell)]
        exact hanswers
      · exact hsession

omit hnamed

theorem isSome_reply_foreseen {cells : Service.Cells} {a : Answered}
    (h : a ∈ s.foreseen E σ cells) : a.reply.isSome := by
  induction cells generalizing σ with
  | nil => cases h
  | cons cell cells ih =>
    rcases List.mem_cons.mp h with rfl | h
    · rfl
    · exact ih h

end

/-- Leaving out of a run all cells that are not for a session changes nothing for those that are:
neither replies nor program calls, nor whether the session is there in the end and with which
history. Every call ends. -/
theorem isolated (o : Surroundings ε) (isThere : String → Bool) (outcome : Call → Outcome)
    (hthere : ∀ x path, o.isThere x path = isThere path)
    (hrun : ∀ x call, (o.run x call).1 = outcome call) (s : Service) {w : World ε}
    {m : MemoryStore} (hstore : w.store.Holds m) (hplanned : w.faults.planned = [])
    (hfree : w.locks.Unused) (cells : Service.Cells) (k : SessionKey) :
    let all := s.executeAll o cells w
    let own := s.executeAll o (cells.filter fun cell => s.addressed cell = some k) w
    own.1 = all.1.filter (fun a => s.addressed a.cell = some k) ∧
      (∀ a ∈ all.1, a.reply.isSome) ∧
      ∃ x, all.2.store.findSession k = .ok x ∧ own.2.store.findSession k = .ok x := by
  intro all own
  let E : Setting := w.setting m isThere outcome
  have ho : o.Steady E := ⟨hthere, hrun⟩
  have hnamed : ∀ n c, E.contexts n = some c → c.name = n := hstore.keyed.contexts
  have hw : w.Meets E m := ⟨hplanned, hstore, fun _ => rfl, fun _ _ => rfl⟩
  obtain ⟨w₁, m₁, hall, hw₁, hsessions₁⟩ := executeAll_eq ho hnamed s cells hw hfree
  obtain ⟨w₂, m₂, hown, hw₂, hsessions₂⟩ :=
    executeAll_eq ho hnamed s (cells.filter fun cell => s.addressed cell = some k) hw hfree
  obtain ⟨hanswers, hsession⟩ :=
    foreseen_filter (k := k) hnamed s cells (rfl : m.sessions.get? k = m.sessions.get? k)
  simp only [all, own, hall, hown]
  refine ⟨hanswers, fun a ha => isSome_reply_foreseen ha, m₁.sessions.get? k, ?_, ?_⟩
  · exact hw₁.store.findSession k
  · rw [hw₂.store.findSession k, hsessions₂, hsessions₁, hsession]

/-- A program that prints what has been assigned before. -/
def echoing : Surroundings Unit where
  isThere _ path := path = "/bin/sh"
  run _ call :=
    if call.args = ["-c", "a=1\necho $a"] then (.ok ⟨some 0, "1\n"⟩, ()) else (.ok ⟨some 0, ""⟩, ())

def mixedWorld : World Unit :=
  .new (.memory ((MemoryStore.empty.saveContext ⟨"shell", "/bin/sh"⟩).saveContext
    ⟨"python", "/usr/bin/python3"⟩)) Registry.builtin .none ()

/-- Two cells of one session among cells of another number, of another language whose program is
missing, of no session, and one that is rejected. -/
def mixedCells : Service.Cells :=
  [("%shell a=2", some "2"), ("%shell a=1", some "1"), ("%python a=3", some "1"), ("a=4", some "1"),
    ("%shell a=5", none), ("%shell echo $a", some "+1")]

theorem isolated_mixed :
    let k : SessionKey := ⟨"shell", ⟨1, by decide, by decide⟩⟩
    let own := mixedCells.filter fun cell => pairService.addressed cell = some k
    own = [("%shell a=1", some "1"), ("%shell echo $a", some "+1")] ∧
      (pairService.executeAll echoing own mixedWorld).1 =
        (pairService.executeAll echoing mixedCells mixedWorld).1.filter
          (fun a => pairService.addressed a.cell = some k) ∧
      (pairService.executeAll echoing own mixedWorld).1.map (·.reply) =
        [some (.ok ""), some (.ok "1")] := by
  intro k own
  have hkeyed : ((MemoryStore.empty.saveContext ⟨"shell", "/bin/sh"⟩).saveContext
      ⟨"python", "/usr/bin/python3"⟩).Keyed :=
    MemoryStore.keyed_saveContext (MemoryStore.keyed_saveContext MemoryStore.keyed_empty _) _
  have hrun (x : Unit) (call : Call) : (echoing.run x call).1 =
      if call.args = ["-c", "a=1\necho $a"] then .ok ⟨some 0, "1\n"⟩ else .ok ⟨some 0, ""⟩ := by
    simp only [echoing]
    split <;> rfl
  obtain ⟨hanswers, -, -⟩ := isolated echoing (fun path => path = "/bin/sh") _ (fun _ _ => rfl) hrun
    pairService (w := mixedWorld) ⟨rfl, hkeyed⟩ rfl rfl mixedCells k
  exact ⟨by decide +kernel, hanswers, by decide +kernel⟩

end CellReplay
