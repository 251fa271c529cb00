import CellReplay.Proofs.Service.Interleaving

/-!
# Proofs.Service.Completion

Programs that take turns never get stuck: wherever they stand, they can be run to their ends.

* `Crew.left`            — how many have not ended.
* `Crew.Clear`           — a program that goes on and has no lock to wait for any more.
* `Crew.Sound.approach`  — if one has to wait for a lock, there is one that is clear.
* `Crew.Sound.drive`     — a program that is clear gets to its end by itself.
* `Crew.Sound.completes` — all get to their ends.
-/

namespace CellReplay

variable {ε α : Type}

namespace Crew

def left (c : Crew ε α) : Nat := c.programs.countP (·.value?.isNone)

theorem left_set {c : Crew ε α} {i : Nat} {e : Effect} {next : e.Answer → Program α}
    (hp : c.programs[i]? = some (.perform e next)) (q : Program α) :
    (c.programs.set i q).countP (·.value?.isNone) + (if q.value?.isNone then 0 else 1) = c.left := by
  obtain ⟨hi, hp⟩ := List.getElem?_eq_some_iff.mp hp
  have hpos : 0 < c.programs.countP (·.value?.isNone) :=
    List.countP_pos_iff.mpr ⟨_, List.getElem_mem hi, by rw [hp]; rfl⟩
  have hone : (if (c.programs[i].value?.isNone) then 1 else 0) = 1 := by rw [hp]; rfl
  rw [List.countP_set hi, hone, left]
  split <;> omega

theorem left_step (o : Surroundings ε) (c : Crew ε α) (i : Nat) : (c.step o i).left ≤ c.left := by
  unfold step
  split
  · rename_i e next hp
    split
    · rename_i b w hb
      have hset := left_set hp (next b)
      rw [← hset]
      exact Nat.le_add_right _ _
    · exact Nat.le_refl _
  · exact Nat.le_refl _

theorem left_run (o : Surroundings ε) (c : Crew ε α) (schedule : List Nat) :
    (c.run o schedule).left ≤ c.left := by
  induction schedule generalizing c with
  | nil => exact Nat.le_refl _
  | cons i schedule ih => exact (ih (c.step o i)).trans (left_step o c i)

theorem run_append (o : Surroundings ε) (c : Crew ε α) (is js : List Nat) :
    c.run o (is ++ js) = (c.run o is).run o js := List.foldl_append

theorem exists_of_not_ended {c : Crew ε α} (h : ¬ c.Ended) :
    ∃ (i : Nat) (e : Effect) (next : e.Answer → Program α),
      c.programs[i]? = some (.perform e next) := by
  rw [Ended, not_forall₂] at h
  obtain ⟨p, hp, hv⟩ := h
  obtain ⟨i, hi⟩ := List.getElem?_of_mem hp
  cases p with
  | done a => exact absurd rfl hv
  | perform e next => exact ⟨i, e, next, hi⟩

/-- The `i`th program goes on, and either needs no lock or has been given its lock. -/
def Clear (M : Nat → Meaning α) (c : Crew ε α) (i : Nat) : Prop :=
  ((M i).key? = none ∨ i ∈ acquired c.log) ∧ ∃ e next, c.programs[i]? = some (.perform e next)

namespace Sound

variable {E : Setting} {M : Nat → Meaning α} {σ₀ : Sessions} {o : Surroundings ε} {c : Crew ε α}
  {m : MemoryStore} {i : Nat}

/-- A program that holds a lock has been given it, and has yet to let go of it. -/
theorem clear_of_holder (h : c.Sound E M σ₀ m) {k : SessionKey} (hk : c.world.locks.Holder i k) :
    c.Clear M i := by
  have hi : i < c.programs.length := by
    obtain ⟨d, hd, rfl, -⟩ := hk
    exact (h.claims d hd).lt
  have hp := List.getElem?_eq_getElem hi
  cases h.stages i _ hp with
  | ahead _ _ hl _ _ => exact absurd hk (hl k)
  | behind _ _ hl _ _ => exact absurd hk (hl k)
  | free _ hl _ _ => exact absurd hk (hl k)
  | inside hM ha hlater hl hmade hfollows =>
    refine ⟨.inr (by rw [ha]; simp), ?_⟩
    rw [hp]
    cases hd : c.programs[i] with
    | done a =>
      rw [hd] at hfollows
      cases hfollows
    | perform e next => exact ⟨e, next, rfl⟩

theorem clear_of_acquired (h : c.Sound E M σ₀ m) {k : SessionKey} {next : Unit → Program α}
    (hp : c.programs[i]? = some (.perform (.acquire k) next)) {w : World ε}
    (hanswer : c.world.answer o i (.acquire k) = (some (), w)) : (c.step o i).Clear M i := by
  obtain ⟨turn, -, -, -, -, hturn⟩ := h.stage_acquire hp
  rw [step_eq hp hanswer]
  refine ⟨.inr (by rw [acquired_append]; simp), ?_⟩
  rw [List.getElem?_set_self (lt_of_getElem? hp)]
  -- with the lock in its hands, a program cannot have ended
  have hfollows := hturn none Effect.forall_mem_none
  cases hn : next () with
  | done a =>
    rw [hn] at hfollows
    cases hfollows
  | perform e next' => exact ⟨e, next', rfl⟩

/-- Where a program is on its way to a lock, it can get the lock, or somebody has it. -/
theorem approach (h : c.Sound E M σ₀ m) (ho : o.Steady E) {k : SessionKey}
    {turn : Option Session → Turn α} {p : Program α} (hp : c.programs[i]? = some p)
    (hawaits : Awaits E k turn p) : ∃ schedule j, (c.run o schedule).Clear M j := by
  induction hawaits generalizing c m with
  | @step e next he hr hnext ih =>
    obtain ⟨b, w, hanswer, hsays, -⟩ := h.meets.answer ho he i
    obtain ⟨m', h'⟩ := h.step ho i
    rw [step_eq hp hanswer] at h'
    obtain ⟨schedule, j, hj⟩ := ih _ b hsays h' (List.getElem?_set_self (lt_of_getElem? hp))
    refine ⟨i :: schedule, j, ?_⟩
    rw [← step_eq hp hanswer] at hj
    exact hj
  | @acquire next hturn =>
    obtain ⟨hq, d, hd, rfl, hphase⟩ := h.queue hp
    have hof := SessionLocks.phaseOf_of_mem hq.coherent.toTidy hd
    rcases hphase with hw | hg
    · -- somebody else has the lock, or has been given it and may take it
      have hstep : c.step o d.ticket = c.asking d.ticket k :=
        step_waiting hp (hof.trans (congrArg some hw))
      obtain ⟨e, he, -, howns⟩ := SessionLocks.isOwned_iff.mp (hq.coherent.served d hd hw)
      rcases SessionLocks.owns_iff.mp howns with hg | hh
      · refine ⟨[d.ticket, e.ticket], e.ticket, ?_⟩
        obtain ⟨next', hp'⟩ := (hq.claims e he).next_of_granted hg
        have hof' := (SessionLocks.phaseOf_of_mem hq.coherent.toTidy he).trans (congrArg some hg)
        have hclear := hq.clear_of_acquired (o := o) hp'
          (answer_granted (by rwa [asking_of_some hof']))
        rwa [← hstep] at hclear
      · have hclear := hq.clear_of_holder ⟨e, he, rfl, rfl, hh⟩
        rw [← hstep] at hclear
        exact ⟨[d.ticket], e.ticket, hclear⟩
    · have hanswer := answer_granted (o := o) (hof.trans (congrArg some hg))
      exact ⟨[d.ticket], d.ticket, h.clear_of_acquired hp hanswer⟩

theorem exists_clear (h : c.Sound E M σ₀ m) (ho : o.Steady E) {e : Effect}
    {next : e.Answer → Program α} (hp : c.programs[i]? = some (.perform e next)) :
    ∃ schedule j, (c.run o schedule).Clear M j := by
  cases h.stages i _ hp with
  | ahead _ _ _ _ hawaits => exact h.approach ho hp hawaits
  | inside _ ha _ _ _ _ => exact ⟨[], i, .inr (by rw [Crew.run, List.foldl_nil, ha]; simp), e, next, hp⟩
  | behind _ ha _ _ _ => exact ⟨[], i, .inr (by rw [Crew.run, List.foldl_nil, ha]; simp), e, next, hp⟩
  | free hM _ _ _ => exact ⟨[], i, .inl (by rw [hM]; rfl), e, next, hp⟩

/-- A program that asks for no lock any more gets to its end by itself. -/
theorem drive (h : c.Sound E M σ₀ m) (ho : o.Steady E) (hc : c.Clear M i) :
    ∃ schedule, (c.run o schedule).left < c.left := by
  obtain ⟨hpassed, e, next, hp⟩ := hc
  generalize hq : Program.perform e next = q at hp
  induction q generalizing c m e next with
  | done a => cases hq
  | perform e next ih =>
    cases hq
    have hmoves : ∃ b w, c.world.answer o i e = (some b, w) := by
      rcases h.next_effect hp with he | ⟨k, rfl⟩ | ⟨k, rfl⟩
      · obtain ⟨b, w, hb, -⟩ := h.meets.answer ho he i
        exact ⟨b, w, hb⟩
      · obtain ⟨turn, hM, hnot, -⟩ := h.stage_acquire hp
        rcases hpassed with hnone | ha
        · rw [hM] at hnone; cases hnone
        · exact absurd ha hnot
      · exact ⟨_, _, rfl⟩
    obtain ⟨b, w, hb⟩ := hmoves
    have hstep := step_eq hp hb
    obtain ⟨m', h'⟩ := h.step ho i
    cases hn : next b with
    | done a =>
      refine ⟨[i], ?_⟩
      have hleft := left_set hp (.done a)
      change (c.step o i).left < c.left
      rw [hstep, hn, ← hleft]
      exact Nat.lt_succ_self _
    | perform e' next' =>
      have hp' : (c.step o i).programs[i]? = some (next b) := by
        rw [hstep]
        exact List.getElem?_set_self (lt_of_getElem? hp)
      have hpassed' : (M i).key? = none ∨ i ∈ acquired (c.step o i).log := by
        rw [hstep, acquired_append]
        exact hpassed.imp id (List.mem_append_left _)
      obtain ⟨schedule, hless⟩ := ih b h' hpassed' e' next' hn.symm hp'
      exact ⟨i :: schedule, hless.trans_le (left_step o c i)⟩

/-- Wherever they stand, the programs can go on until all have ended. -/
theorem completes (h : c.Sound E M σ₀ m) (ho : o.Steady E) :
    ∃ schedule, (c.run o schedule).Ended := by
  generalize hn : c.left = n
  induction n using Nat.strongRecOn generalizing c m with
  | ind n ih =>
    by_cases hend : c.Ended
    · exact ⟨[], hend⟩
    · obtain ⟨i, e, next, hp⟩ := exists_of_not_ended hend
      obtain ⟨is, j, hclear⟩ := h.exists_clear ho hp
      obtain ⟨m₁, h₁⟩ := h.run ho is
      obtain ⟨js, hless⟩ := h₁.drive ho hclear
      obtain ⟨m₂, h₂⟩ := h₁.run ho js
      have hlt := hless.trans_le (left_run o c is)
      obtain ⟨ks, hdone⟩ := ih _ (hn ▸ hlt) h₂ rfl
      exact ⟨is ++ (js ++ ks), by rwa [run_append, run_append]⟩

end Sound

end Crew

end CellReplay
