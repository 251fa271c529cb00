import CellReplay.Proofs.Locks.Coherent

/-!
# Proofs.Locks.Holders

Which call holds the lock of which session, and how the steps of calls change that.

* `Holder` — a call holds the lock of a session.
* `holder_enter`, `holder_resume`, `holder_leave` — the holders after a call has queued, has taken its
  lock, or has let go of it.
-/

namespace CellReplay.SessionLocks

variable {τ : Type} {l : SessionLocks τ} {i j : τ} {k k' : SessionKey}

def Holder (l : SessionLocks τ) (i : τ) (k : SessionKey) : Prop :=
  ∃ c ∈ l.claims, c.ticket = i ∧ c.key = k ∧ c.phase = .holding

theorem Coherent.holder_unique (h : l.Coherent) (hi : l.Holder i k) (hj : l.Holder j k) : i = j := by
  obtain ⟨c, hc, rfl, hck, hcp⟩ := hi
  obtain ⟨d, hd, rfl, hdk, hdp⟩ := hj
  rw [h.toTidy.owner_of_key hc hd (owns_iff.mpr (.inr hcp)) (owns_iff.mpr (.inr hdp))
    (hck.trans hdk.symm)]

theorem Coherent.not_holder_of_granted (h : l.Coherent) {c : Claim τ} (hc : c ∈ l.claims)
    (hg : c.phase = .granted) : ¬ l.Holder i c.key := by
  rintro ⟨d, hd, -, hdk, hdp⟩
  have hcd := h.toTidy.owner_of_key hc hd (owns_iff.mpr (.inl hg)) (owns_iff.mpr (.inr hdp)) hdk.symm
  rw [hcd, hdp] at hg
  cases hg

theorem holder_enter (h : l.Coherent) : (l.enter j k).Holder i k' ↔ l.Holder i k' := by
  obtain ⟨m, p, hc, hp⟩ := enter_claims h j k
  unfold Holder
  rw [hc]
  constructor
  · rintro ⟨c, hc, ht, hk, hh⟩
    rcases List.mem_append.mp hc with hc | hc
    · exact ⟨c, hc, ht, hk, hh⟩
    · cases List.mem_singleton.mp hc
      rcases hp with rfl | rfl <;> cases hh
  · rintro ⟨c, hc, hrest⟩
    exact ⟨c, List.mem_append_left _ hc, hrest⟩

variable [DecidableEq τ]

theorem holder_resume (h : l.Coherent) {c : Claim τ} (hc : c ∈ l.claims) (hg : c.phase = .granted) :
    (l.resume c.ticket).Holder i k ↔ l.Holder i k ∨ i = c.ticket ∧ k = c.key := by
  have hr : l.resume c.ticket = l.withPhase c.ticket .holding :=
    if_pos ((phaseOf_of_mem h.toTidy hc).trans (congrArg some hg))
  unfold Holder
  simp only [hr, mem_withPhase]
  constructor
  · rintro ⟨d, ⟨hd, -⟩ | ⟨e, he, het, rfl⟩, ht, hk, hh⟩
    · exact .inl ⟨d, hd, ht, hk, hh⟩
    · cases h.toTidy.eq_of_ticket he hc het
      exact .inr ⟨ht.symm, hk.symm⟩
  · rintro (⟨d, hd, ht, hk, hh⟩ | ⟨rfl, rfl⟩)
    · refine ⟨d, .inl ⟨hd, fun hdc => ?_⟩, ht, hk, hh⟩
      rw [h.toTidy.eq_of_ticket hd hc hdc, hg] at hh
      cases hh
    · exact ⟨_, .inr ⟨c, hc, rfl, rfl⟩, rfl, rfl, rfl⟩

theorem holder_leave (h : l.Coherent) {c : Claim τ} (hc : c ∈ l.claims) (hp : c.phase = .holding) :
    ((l.release c.ticket).prune c.ticket).Holder i k ↔ l.Holder i k ∧ i ≠ c.ticket := by
  obtain ⟨hback, hforth⟩ := moved_leave h hc hp
  constructor
  · rintro ⟨d, hd, rfl, rfl, hh⟩
    obtain ⟨hne, e, he, hm⟩ := hback d hd
    refine ⟨⟨e, he, hm.ticket.symm, hm.key.symm, ?_⟩, hne⟩
    rcases hm.phase with hphase | ⟨-, hg⟩
    · rw [← hphase, hh]
    · rw [hh] at hg; cases hg
  · rintro ⟨⟨d, hd, rfl, rfl, hh⟩, hne⟩
    obtain ⟨e, he, hm⟩ := hforth d hd hne
    refine ⟨e, he, hm.ticket, hm.key, ?_⟩
    rcases hm.phase with hphase | ⟨hw, -⟩
    · rw [hphase, hh]
    · rw [hh] at hw; cases hw

end CellReplay.SessionLocks
