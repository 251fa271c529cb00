import CellReplay.SessionLocks

/-!
# Proofs.Locks.Alone

A call that finds the locks unused gets the one it asks for at once, and leaves them unused.
-/

namespace CellReplay.SessionLocks

variable {τ : Type} [DecidableEq τ]

/-- Nobody holds a lock or waits for one. -/
def Unused (l : SessionLocks τ) : Prop := l.claims = []

/-- One call holds the lock of a session, and nobody else holds a lock or waits for one. -/
def HeldAlone (l : SessionLocks τ) (t : τ) (k : SessionKey) : Prop :=
  ∃ m, l.claims = [⟨t, k, m, .holding⟩]

theorem phaseOf_unused {l : SessionLocks τ} (h : l.Unused) (t : τ) : l.phaseOf t = none := by
  rw [phaseOf, show l.claims = [] from h]
  rfl

omit [DecidableEq τ] in
theorem enter_unused {l : SessionLocks τ} (h : l.Unused) (t : τ) (k : SessionKey) :
    ∃ m, (l.enter t k).claims = [⟨t, k, m, .granted⟩] := by
  unfold enter
  cases l.entries.get? k with
  | some m => exact ⟨m, by simp [handOver, isOwned, Claim.owns, grantFirst, show l.claims = [] from h]⟩
  | none =>
    exact ⟨l.fresh, by simp [handOver, isOwned, Claim.owns, grantFirst, show l.claims = [] from h]⟩

theorem phaseOf_enter_unused {l : SessionLocks τ} (h : l.Unused) (t : τ) (k : SessionKey) :
    (l.enter t k).phaseOf t = some .granted := by
  obtain ⟨m, hm⟩ := enter_unused h t k
  simp [phaseOf, hm]

theorem resume_enter_unused {l : SessionLocks τ} (h : l.Unused) (t : τ) (k : SessionKey) :
    ((l.enter t k).resume t).HeldAlone t k := by
  obtain ⟨m, hm⟩ := enter_unused h t k
  exact ⟨m, by simp [resume, phaseOf, withPhase, hm]⟩

theorem prune_release_heldAlone {l : SessionLocks τ} {t : τ} {k : SessionKey}
    (h : l.HeldAlone t k) : ((l.release t).prune t).Unused := by
  obtain ⟨m, hm⟩ := h
  have hr : (l.release t).claims = [⟨t, k, m, .leaving⟩] := by
    simp [release, hm, withPhase, handOver, isOwned, Claim.owns, grantFirst]
  unfold Unused prune
  simp only [hr, List.find?_cons, decide_true, drop, List.filter_cons, ne_eq, not_true_eq_false,
    decide_false, List.filter_nil, Bool.false_eq_true, if_false, if_true]
  split <;> rfl

end CellReplay.SessionLocks
