import CellReplay.Proofs.Locks.Coherent
import Mathlib.Data.List.Induction

/-!
# Proofs.Locks.Runs

The locks of sessions under any steps of any calls, in any order.

* `LockStep`     — one step of one call. A step that the call cannot take now changes nothing.
* `step`, `run`  — the locks after a step, and after many.
* `newcomers`    — the calls that queue, in order. Each call queues once if none stands there twice.
* `trace`        — what is observed at each step of a run, in order.
* `coherent_run` — the locks are coherent throughout a run.
-/

namespace CellReplay

inductive LockStep (τ : Type)
  | enter (t : τ) (k : SessionKey)
  | resume (t : τ)
  | release (t : τ)
  | prune (t : τ)
  | cancel (t : τ)
  deriving DecidableEq, Repr

namespace LockStep

variable {τ : Type}

def ticket : LockStep τ → τ
  | enter t _ | resume t | release t | prune t | cancel t => t

/-- The call that queues at this step. -/
def newcomer : LockStep τ → List τ
  | enter t _ => [t]
  | _ => []

/-- The call that queues at this step for the lock of a session. -/
def arrival (k : SessionKey) : LockStep τ → List τ
  | enter t k' => if k' = k then [t] else []
  | _ => []

end LockStep

namespace SessionLocks

variable {τ : Type} [DecidableEq τ] {α β : Type} {l : SessionLocks τ} {t : τ} {k : SessionKey}
  {m : Nat}

def step (l : SessionLocks τ) : LockStep τ → SessionLocks τ
  | .enter t k => l.enter t k
  | .resume t => l.resume t
  | .release t => l.release t
  | .prune t => l.prune t
  | .cancel t => l.cancel t

def run (l : SessionLocks τ) (steps : List (LockStep τ)) : SessionLocks τ := steps.foldl step l

omit [DecidableEq τ] in
def newcomers (steps : List (LockStep τ)) : List τ := steps.flatMap LockStep.newcomer

/-- What `f` finds at each step of a run. -/
def trace (f : SessionLocks τ → LockStep τ → List α) (l : SessionLocks τ) :
    List (LockStep τ) → List α
  | [] => []
  | s :: ss => f l s ++ trace f (l.step s) ss

theorem run_append (l : SessionLocks τ) (ss : List (LockStep τ)) (s : LockStep τ) :
    l.run (ss ++ [s]) = (l.run ss).step s := by
  simp only [run, List.foldl_append, List.foldl_cons, List.foldl_nil]

theorem trace_append (f : SessionLocks τ → LockStep τ → List α) (l : SessionLocks τ)
    (ss : List (LockStep τ)) (s : LockStep τ) :
    trace f l (ss ++ [s]) = trace f l ss ++ f (l.run ss) s := by
  induction ss generalizing l with
  | nil => exact List.append_nil _
  | cons s' ss ih =>
    rw [List.cons_append, trace, ih, trace, List.append_assoc]
    rfl

omit [DecidableEq τ] in
theorem newcomers_append (ss : List (LockStep τ)) (s : LockStep τ) :
    newcomers (ss ++ [s]) = newcomers ss ++ s.newcomer := by
  simp [newcomers]

/-! ## Claims through a step -/

omit [DecidableEq τ] in
/-- Granting changes nothing in a claim but its phase. -/
theorem map_grantFirst (f : Claim τ → β) (hf : ∀ c p, f { c with phase := p } = f c)
    (cs : List (Claim τ)) : (grantFirst m cs).map f = cs.map f := by
  induction cs with
  | nil => rfl
  | cons c cs ih =>
    unfold grantFirst
    split
    · rw [List.map_cons, List.map_cons, hf]
    · rw [List.map_cons, List.map_cons, ih]

omit [DecidableEq τ] in
theorem map_handOver (f : Claim τ → β) (hf : ∀ c p, f { c with phase := p } = f c)
    (l : SessionLocks τ) (m : Nat) : (l.handOver m).claims.map f = l.claims.map f := by
  unfold handOver
  split
  · rfl
  · exact map_grantFirst f hf _

theorem map_withPhase (f : Claim τ → β) (hf : ∀ c p, f { c with phase := p } = f c)
    (l : SessionLocks τ) (t : τ) (p : Phase) :
    (l.withPhase t p).claims.map f = l.claims.map f := by
  rw [withPhase, List.map_map]
  refine List.map_congr_left fun c _ => ?_
  dsimp only [Function.comp]
  split
  · exact hf c p
  · rfl

theorem map_release (f : Claim τ → β) (hf : ∀ c p, f { c with phase := p } = f c)
    (l : SessionLocks τ) (t : τ) : (l.release t).claims.map f = l.claims.map f := by
  unfold release
  split
  · split
    · rw [map_handOver f hf, map_withPhase f hf]
    · rfl
  · rfl

theorem map_drop_sublist (f : Claim τ → β) (l : SessionLocks τ) (t : τ) :
    ((l.drop t).claims.map f).Sublist (l.claims.map f) :=
  (List.filter_sublist).map f

theorem map_prune_sublist (f : Claim τ → β) (l : SessionLocks τ) (t : τ) :
    ((l.prune t).claims.map f).Sublist (l.claims.map f) := by
  unfold prune
  split
  · split
    · dsimp only
      split
      · split
        · exact map_drop_sublist f l t
        · exact map_drop_sublist f l t
      · exact map_drop_sublist f l t
    · exact .refl _
  · exact .refl _

theorem map_cancel_sublist (f : Claim τ → β) (hf : ∀ c p, f { c with phase := p } = f c)
    (l : SessionLocks τ) (t : τ) : ((l.cancel t).claims.map f).Sublist (l.claims.map f) := by
  unfold cancel
  split
  · split
    · exact map_drop_sublist f l t
    · rw [map_handOver f hf]
      exact map_drop_sublist f l t
    · rw [map_release f hf]
    · exact .refl _
  · exact .refl _

/-- No claim comes from nowhere. -/
theorem tickets_step (h : l.Coherent) (s : LockStep τ) :
    ((l.step s).claims.map (·.ticket)).Sublist (l.claims.map (·.ticket) ++ s.newcomer) := by
  cases s with
  | enter t k =>
    obtain ⟨m, p, hc, -⟩ := enter_claims h t k
    rw [step, hc, List.map_append]
    exact .refl _
  | resume t =>
    refine List.Sublist.trans ?_ (List.sublist_append_left _ _)
    rw [step, resume]
    split
    · rw [map_withPhase _ fun _ _ => rfl]
    · exact .refl _
  | release t =>
    rw [step, map_release _ fun _ _ => rfl]
    exact List.sublist_append_left _ _
  | prune t => exact (map_prune_sublist _ l t).trans (List.sublist_append_left _ _)
  | cancel t =>
    exact (map_cancel_sublist _ (fun _ _ => rfl) l t).trans (List.sublist_append_left _ _)

/-- A call that queues at this step is a new one. -/
def Fresh (l : SessionLocks τ) (s : LockStep τ) : Prop :=
  ∀ t ∈ s.newcomer, ∀ c ∈ l.claims, c.ticket ≠ t

theorem coherent_step (h : l.Coherent) {s : LockStep τ} (hs : l.Fresh s) :
    (l.step s).Coherent := by
  cases s with
  | enter t k => exact coherent_enter h (hs t (List.mem_singleton.mpr rfl))
  | resume t => exact coherent_resume h t
  | release t => exact coherent_release h t
  | prune t => exact coherent_prune h t
  | cancel t => exact coherent_cancel h t

/-! ## Runs -/

/-- After a run in which each call queues once, the locks are coherent, and those who have a claim
are among those who have queued. -/
theorem coherent_run {steps : List (LockStep τ)} (h : (newcomers steps).Nodup) :
    ((empty : SessionLocks τ).run steps).Coherent ∧
      ∀ c ∈ ((empty : SessionLocks τ).run steps).claims, c.ticket ∈ newcomers steps := by
  induction steps using List.reverseRecOn with
  | nil => exact ⟨coherent_empty, fun _ hc => nomatch hc⟩
  | append_singleton ss s ih =>
    rw [newcomers_append, List.nodup_append] at h
    obtain ⟨hco, hin⟩ := ih h.1
    have hs : (empty.run ss).Fresh s := fun t ht c hc =>
      h.2.2 c.ticket (hin c hc) t ht
    rw [run_append, newcomers_append]
    refine ⟨coherent_step hco hs, fun c hc => ?_⟩
    have hmem := (tickets_step hco s).subset (List.mem_map_of_mem hc)
    rcases List.mem_append.mp hmem with hold | hnew
    · obtain ⟨d, hd, hdc⟩ := List.mem_map.mp hold
      exact List.mem_append_left _ (hdc ▸ hin d hd)
    · exact List.mem_append_right _ hnew

theorem fresh_run {ss : List (LockStep τ)} {s : LockStep τ} (h : (newcomers (ss ++ [s])).Nodup) :
    ((empty : SessionLocks τ).run ss).Fresh s := by
  rw [newcomers_append, List.nodup_append] at h
  exact fun t ht c hc => h.2.2 c.ticket ((coherent_run h.1).2 c hc) t ht

omit [DecidableEq τ] in
theorem nodup_newcomers {ss : List (LockStep τ)} {s : LockStep τ}
    (h : (newcomers (ss ++ [s])).Nodup) : (newcomers ss).Nodup := by
  rw [newcomers_append, List.nodup_append] at h
  exact h.1

end SessionLocks

end CellReplay
