import CellReplay.SessionLocks
import Mathlib.Data.List.Nodup

/-!
# Proofs.Locks.Coherent

What is true of the locks of sessions after any steps of any calls.

* `Tidy`     — claims refer to the mutex that their session has in the map, sessions have mutexes of
  their own, and a mutex has one owner.
* `Coherent` — beside that, nobody waits for a mutex that is free.
* `coherent_enter`, `coherent_resume`, `coherent_release`, `coherent_prune`, `coherent_cancel` — every
  step keeps it.
* `handOver_cases`, `enter_claims`, `moved_leave` — what the steps do to the claims.
-/

namespace CellReplay.SessionLocks

variable {τ : Type} {l : SessionLocks τ} {t : τ} {k : SessionKey} {m : Nat}

structure Tidy (l : SessionLocks τ) : Prop where
  tickets : (l.claims.map (·.ticket)).Nodup
  mapped : ∀ c ∈ l.claims, c.refers → l.entries.get? c.key = some c.mutex
  apart : ∀ k k' m, l.entries.get? k = some m → l.entries.get? k' = some m → k = k'
  made : ∀ k m, l.entries.get? k = some m → m < l.fresh
  owner : ∀ c ∈ l.claims, ∀ d ∈ l.claims, c.owns → d.owns → c.mutex = d.mutex → c = d

/-- Nobody waits for a mutex that is free, except perhaps for one of them. -/
def ServedBut (l : SessionLocks τ) (m : Nat) : Prop :=
  ∀ c ∈ l.claims, c.phase = .waiting → c.mutex ≠ m → l.isOwned c.mutex

structure Coherent (l : SessionLocks τ) : Prop extends l.Tidy where
  served : ∀ c ∈ l.claims, c.phase = .waiting → l.isOwned c.mutex

theorem coherent_empty : (empty : SessionLocks τ).Coherent where
  tickets := .nil
  mapped := fun _ h => nomatch h
  apart := fun _ _ _ h => nomatch h
  made := fun _ _ h => nomatch h
  owner := fun _ h => nomatch h
  served := fun _ h => nomatch h

theorem owns_iff {c : Claim τ} : c.owns ↔ c.phase = .granted ∨ c.phase = .holding := by
  simp [Claim.owns]

theorem refers_iff {c : Claim τ} : c.refers ↔ c.phase ≠ .leaving := by
  simp [Claim.refers]

theorem not_owns {c : Claim τ} (h : c.phase = .waiting ∨ c.phase = .leaving) : ¬ c.owns := by
  rw [owns_iff]
  rcases h with h | h <;> simp [h]

theorem refers_of_owns {c : Claim τ} (h : c.owns) : c.refers :=
  refers_iff.mpr fun hl => not_owns (.inr hl) h

theorem isOwned_iff : l.isOwned m ↔ ∃ c ∈ l.claims, c.mutex = m ∧ c.owns := by
  simp [isOwned]

theorem Tidy.eq_of_ticket (h : l.Tidy) {c d : Claim τ} (hc : c ∈ l.claims) (hd : d ∈ l.claims)
    (ht : c.ticket = d.ticket) : c = d := List.inj_on_of_nodup_map h.tickets hc hd ht

/-- Two calls never own the lock of one session. -/
theorem Tidy.owner_of_key (h : l.Tidy) {c d : Claim τ} (hc : c ∈ l.claims) (hd : d ∈ l.claims)
    (hoc : c.owns) (hod : d.owns) (hk : c.key = d.key) : c = d := by
  refine h.owner c hc d hd hoc hod ?_
  have hm := h.mapped c hc (refers_of_owns hoc)
  rw [hk, h.mapped d hd (refers_of_owns hod)] at hm
  exact (Option.some.inj hm).symm

/-! ## Granting and queueing -/

theorem grantFirst_append {cs ds : List (Claim τ)}
    (h : ∀ c ∈ cs, ¬ (c.mutex = m ∧ c.phase = .waiting)) :
    grantFirst m (cs ++ ds) = cs ++ grantFirst m ds := by
  induction cs with
  | nil => rfl
  | cons c cs ih =>
    rw [List.cons_append, grantFirst, if_neg (h c List.mem_cons_self),
      ih fun d hd => h d (List.mem_cons_of_mem c hd), List.cons_append]

/-- Either nobody waits for the mutex, or the first one who does is given it. -/
theorem grantFirst_cases (m : Nat) (cs : List (Claim τ)) :
    ((∀ c ∈ cs, ¬ (c.mutex = m ∧ c.phase = .waiting)) ∧ grantFirst m cs = cs) ∨
      ∃ pre c post, cs = pre ++ c :: post ∧ c.mutex = m ∧ c.phase = .waiting ∧
        (∀ d ∈ pre, ¬ (d.mutex = m ∧ d.phase = .waiting)) ∧
          grantFirst m cs = pre ++ { c with phase := .granted } :: post := by
  induction cs with
  | nil => exact .inl ⟨fun _ h => (nomatch h), rfl⟩
  | cons c cs ih =>
    by_cases hc : c.mutex = m ∧ c.phase = .waiting
    · refine .inr ⟨[], c, cs, rfl, hc.1, hc.2, fun _ h => (nomatch h), ?_⟩
      rw [grantFirst, if_pos hc]
      rfl
    · rw [grantFirst, if_neg hc]
      rcases ih with ⟨hno, heq⟩ | ⟨pre, d, post, rfl, hm, hw, hpre, heq⟩
      · exact .inl ⟨List.forall_mem_cons.mpr ⟨hc, hno⟩, by rw [heq]⟩
      · exact .inr ⟨c :: pre, d, post, rfl, hm, hw, List.forall_mem_cons.mpr ⟨hc, hpre⟩, by
          rw [heq]; rfl⟩

theorem isOwned_mono {l' : SessionLocks τ} (h : ∀ c ∈ l.claims, c.owns → c ∈ l'.claims)
    (ho : l.isOwned m) : l'.isOwned m := by
  obtain ⟨c, hc, hm, how⟩ := isOwned_iff.mp ho
  exact isOwned_iff.mpr ⟨c, h c hc how, hm, how⟩

/-- The locks once a claim has found or made the mutex of its session, and has queued there. -/
def queued (l : SessionLocks τ) (t : τ) (k : SessionKey) : Nat × SessionLocks τ :=
  match l.entries.get? k with
  | some m => (m, { l with claims := l.claims ++ [⟨t, k, m, .waiting⟩] })
  | none =>
    (l.fresh, ⟨l.entries.put k l.fresh, l.claims ++ [⟨t, k, l.fresh, .waiting⟩], l.fresh + 1⟩)

theorem enter_eq (l : SessionLocks τ) (t : τ) (k : SessionKey) :
    l.enter t k = (l.queued t k).2.handOver (l.queued t k).1 := by
  unfold enter queued
  cases l.entries.get? k <;> rfl

theorem queued_claims (l : SessionLocks τ) (t : τ) (k : SessionKey) :
    (l.queued t k).2.claims = l.claims ++ [⟨t, k, (l.queued t k).1, .waiting⟩] := by
  unfold queued
  cases l.entries.get? k <;> rfl

theorem queued_entry (l : SessionLocks τ) (t : τ) (k : SessionKey) :
    (l.queued t k).2.entries.get? k = some (l.queued t k).1 := by
  unfold queued
  cases h : l.entries.get? k with
  | some m => exact h
  | none => exact (Table.get?_put _ _ _ _).trans (if_pos rfl)

theorem queued_entries {k' : SessionKey} (h : l.entries.get? k' = some m) :
    (l.queued t k).2.entries.get? k' = some m := by
  unfold queued
  cases hk : l.entries.get? k with
  | some m' => exact h
  | none =>
    refine (Table.get?_put _ _ _ _).trans ((if_neg ?_).trans h)
    rintro rfl
    rw [hk] at h
    cases h

theorem tidy_queued (h : l.Coherent) (ht : ∀ c ∈ l.claims, c.ticket ≠ t) :
    (l.queued t k).2.Tidy := by
  have hmem {c : Claim τ} (hc : c ∈ (l.queued t k).2.claims) :
      c ∈ l.claims ∨ c = ⟨t, k, (l.queued t k).1, .waiting⟩ := by
    rwa [queued_claims, List.mem_append, List.mem_singleton] at hc
  have hold {c : Claim τ} (hc : c ∈ (l.queued t k).2.claims) (ho : c.owns) : c ∈ l.claims := by
    rcases hmem hc with hc | rfl
    · exact hc
    · cases ho
  -- an entry of the locks before, or the new one
  have hentry {k' : SessionKey} {m' : Nat} (he : (l.queued t k).2.entries.get? k' = some m') :
      l.entries.get? k' = some m' ∨
        k' = k ∧ m' = l.fresh ∧ (l.queued t k).2.fresh = l.fresh + 1 := by
    unfold queued at he ⊢
    cases hk : l.entries.get? k with
    | some _ => rw [hk] at he; exact .inl he
    | none =>
      rw [hk] at he
      dsimp only at he
      rw [Table.get?_put] at he
      split at he
      · rename_i hkk
        exact .inr ⟨hkk.symm, (Option.some.inj he).symm, rfl⟩
      · exact .inl he
  refine ⟨?_, fun c hc hr => ?_, fun k₁ k₂ m' h₁ h₂ => ?_, fun k' m' he => ?_,
    fun c hc d hd hoc hod => h.owner c (hold hc hoc) d (hold hd hod) hoc hod⟩
  · rw [queued_claims, List.map_append, List.nodup_append]
    refine ⟨h.tickets, List.nodup_singleton _, fun a ha b hb hab => ?_⟩
    obtain ⟨c, hc, rfl⟩ := List.mem_map.mp ha
    cases List.mem_singleton.mp hb
    exact ht c hc hab
  · rcases hmem hc with hc | rfl
    · exact queued_entries (h.mapped c hc hr)
    · exact queued_entry l t k
  · rcases hentry h₁ with ho₁ | ⟨rfl, rfl, -⟩ <;> rcases hentry h₂ with ho₂ | ⟨hk₂, hm, -⟩
    · exact h.apart _ _ _ ho₁ ho₂
    · exact absurd (h.made _ _ ho₁) (by omega)
    · exact absurd (h.made _ _ ho₂) (by omega)
    · exact hk₂.symm
  · rcases hentry he with he | ⟨-, rfl, hf⟩
    · have hm := h.made _ _ he
      unfold queued
      cases l.entries.get? k with
      | some _ => exact hm
      | none => exact Nat.lt_succ_of_lt hm
    · rw [hf]; exact Nat.lt_succ_self _

/-- A claim that queues waits, unless the mutex is free and so is its own at once. -/
theorem enter_claims (h : l.Coherent) (t : τ) (k : SessionKey) :
    ∃ m p, (l.enter t k).claims = l.claims ++ [⟨t, k, m, p⟩] ∧ (p = .waiting ∨ p = .granted) := by
  rw [enter_eq]
  unfold handOver
  split
  · exact ⟨_, _, queued_claims l t k, .inl rfl⟩
  · rename_i hfree
    refine ⟨(l.queued t k).1, .granted, ?_, .inr rfl⟩
    dsimp only
    rw [queued_claims, grantFirst_append, grantFirst, if_pos ⟨rfl, rfl⟩]
    rintro c hc ⟨hm, hw⟩
    refine hfree (isOwned_mono (fun d hd _ => ?_) (hm ▸ h.served c hc hw))
    rw [queued_claims]
    exact List.mem_append_left _ hd

/-! ## Phases -/

variable [DecidableEq τ]

theorem of_find?_ticket {c : Claim τ} (h : l.claims.find? (·.ticket = t) = some c) :
    c ∈ l.claims ∧ c.ticket = t :=
  ⟨List.mem_of_find?_eq_some h, by simpa using List.find?_some h⟩

theorem find?_ticket (h : l.Tidy) {c : Claim τ} (hc : c ∈ l.claims) :
    l.claims.find? (·.ticket = c.ticket) = some c := by
  cases hf : l.claims.find? (·.ticket = c.ticket) with
  | none => exact absurd (decide_eq_true rfl) (List.find?_eq_none.mp hf c hc)
  | some d =>
    obtain ⟨hd, ht⟩ := of_find?_ticket hf
    rw [h.eq_of_ticket hd hc ht]

theorem phaseOf_of_mem (h : l.Tidy) {c : Claim τ} (hc : c ∈ l.claims) :
    l.phaseOf c.ticket = some c.phase := by
  rw [phaseOf, find?_ticket h hc]
  rfl

theorem phaseOf_eq_none_iff : l.phaseOf t = none ↔ ∀ c ∈ l.claims, c.ticket ≠ t := by
  simp [phaseOf]

theorem mem_of_phaseOf {p : Phase} (h : l.phaseOf t = some p) :
    ∃ c ∈ l.claims, c.ticket = t ∧ c.phase = p := by
  obtain ⟨c, hf, hp⟩ := Option.map_eq_some_iff.mp h
  obtain ⟨hc, ht⟩ := of_find?_ticket hf
  exact ⟨c, hc, ht, hp⟩

theorem mem_withPhase {p : Phase} {c : Claim τ} : c ∈ (l.withPhase t p).claims ↔
    (c ∈ l.claims ∧ c.ticket ≠ t) ∨ ∃ d ∈ l.claims, d.ticket = t ∧ c = { d with phase := p } := by
  simp only [withPhase, List.mem_map]
  constructor
  · rintro ⟨d, hd, rfl⟩
    split
    · rename_i ht; exact .inr ⟨d, hd, ht, rfl⟩
    · rename_i ht; exact .inl ⟨hd, ht⟩
  · rintro (⟨hc, ht⟩ | ⟨d, hd, ht, rfl⟩)
    · exact ⟨c, hc, if_neg ht⟩
    · exact ⟨d, hd, if_pos ht⟩

theorem withPhase_tickets (l : SessionLocks τ) (t : τ) (p : Phase) :
    (l.withPhase t p).claims.map (·.ticket) = l.claims.map (·.ticket) := by
  rw [withPhase, List.map_map]
  refine List.map_congr_left fun c _ => ?_
  dsimp only [Function.comp]
  split <;> rfl

/-- A claim may change its phase if its mutex is its own or nobody's. -/
theorem Tidy.withPhase (h : l.Tidy) {c : Claim τ} (hc : c ∈ l.claims) (hr : c.refers)
    (ho : ∀ d ∈ l.claims, d.owns → d.mutex = c.mutex → d = c) (p : Phase) :
    (l.withPhase c.ticket p).Tidy := by
  have howner {d : Claim τ} (hd : d ∈ (l.withPhase c.ticket p).claims) (hod : d.owns) :
      (d ∈ l.claims ∧ d.ticket ≠ c.ticket) ∨ d = { c with phase := p } := by
    rcases mem_withPhase.mp hd with hd | ⟨e, he, ht, rfl⟩
    · exact .inl hd
    · rw [h.eq_of_ticket he hc ht]; exact .inr rfl
  refine ⟨by rw [withPhase_tickets]; exact h.tickets, fun d hd hr' => ?_, h.apart, h.made, ?_⟩
  · rcases mem_withPhase.mp hd with ⟨hd, -⟩ | ⟨e, he, ht, rfl⟩
    · exact h.mapped d hd hr'
    · rw [h.eq_of_ticket he hc ht]
      exact h.mapped c hc hr
  · intro d hd e he hod hoe hde
    rcases howner hd hod with ⟨hd, hdt⟩ | rfl <;> rcases howner he hoe with ⟨he, het⟩ | rfl
    · exact h.owner d hd e he hod hoe hde
    · exact absurd (congrArg Claim.ticket (ho d hd hod hde)) hdt
    · exact absurd (congrArg Claim.ticket (ho e he hoe hde.symm)) het
    · rfl

theorem Tidy.withPhase_owner (h : l.Tidy) {c : Claim τ} (hc : c ∈ l.claims) (ho : c.owns)
    (p : Phase) : (l.withPhase c.ticket p).Tidy :=
  h.withPhase hc (refers_of_owns ho) (fun d hd hod hm => h.owner d hd c hc hod ho hm) p

/-! ## Handing a mutex over -/

theorem withPhase_middle (h : l.Tidy) {c : Claim τ} {pre post : List (Claim τ)}
    (hl : l.claims = pre ++ c :: post) (p : Phase) :
    (l.withPhase c.ticket p).claims = pre ++ { c with phase := p } :: post := by
  have hnodup := h.tickets
  rw [hl, List.map_append, List.map_cons] at hnodup
  have hnot := (List.nodup_cons.mp (List.nodup_middle.mp hnodup)).1
  rw [List.mem_append, not_or] at hnot
  have hkeep {cs : List (Claim τ)} (hcs : c.ticket ∉ cs.map (·.ticket)) :
      cs.map (fun d => if d.ticket = c.ticket then { d with phase := p } else d) = cs := by
    refine (List.map_congr_left fun d hd => if_neg fun ht => hcs ?_).trans (List.map_id' cs)
    exact List.mem_map.mpr ⟨d, hd, ht⟩
  rw [SessionLocks.withPhase, hl]
  dsimp only
  rw [List.map_append, List.map_cons, if_pos rfl, hkeep hnot.1, hkeep hnot.2]

/-- A mutex stays as it is, or the first who waits for it is given it. -/
theorem handOver_cases (h : l.Tidy) (m : Nat) :
    (l.handOver m = l ∧
      (l.isOwned m ∨ ∀ c ∈ l.claims, ¬ (c.mutex = m ∧ c.phase = .waiting))) ∨
    ∃ c ∈ l.claims, c.mutex = m ∧ c.phase = .waiting ∧ ¬ l.isOwned m ∧
      l.handOver m = l.withPhase c.ticket .granted := by
  unfold handOver
  split
  · rename_i ho
    exact .inl ⟨rfl, .inl ho⟩
  · rename_i hfree
    rcases grantFirst_cases m l.claims with ⟨hno, heq⟩ | ⟨pre, c, post, hl, hm, hw, -, heq⟩
    · rw [heq]
      exact .inl ⟨rfl, .inr hno⟩
    · refine .inr ⟨c, by rw [hl]; simp, hm, hw, hfree, ?_⟩
      rw [heq, ← withPhase_middle h hl]
      rfl

theorem coherent_handOver (h : l.Tidy) (hs : l.ServedBut m) : (l.handOver m).Coherent := by
  rcases handOver_cases h m with ⟨heq, hno⟩ | ⟨c, hc, rfl, hw, hfree, heq⟩
  · rw [heq]
    refine ⟨h, fun d hd hdw => ?_⟩
    by_cases hm : d.mutex = m
    · rcases hno with ho | hno
      · rw [hm]; exact ho
      · exact absurd ⟨hm, hdw⟩ (hno d hd)
    · exact hs d hd hdw hm
  · rw [heq]
    have hnone (d : Claim τ) (hd : d ∈ l.claims) (ho : d.owns) (hm : d.mutex = c.mutex) : d = c :=
      absurd (isOwned_iff.mpr ⟨d, hd, hm, ho⟩) hfree
    refine ⟨h.withPhase hc (by rw [refers_iff, hw]; decide) hnone _, fun d hd hdw => ?_⟩
    rcases mem_withPhase.mp hd with ⟨hd, -⟩ | ⟨e, -, -, rfl⟩
    · by_cases hm : d.mutex = c.mutex
      · exact isOwned_iff.mpr ⟨_, mem_withPhase.mpr (.inr ⟨c, hc, rfl, rfl⟩), hm.symm, rfl⟩
      · obtain ⟨e, he, hem, hoe⟩ := isOwned_iff.mp (hs d hd hdw hm)
        refine isOwned_iff.mpr ⟨e, mem_withPhase.mpr (.inl ⟨he, fun het => hm ?_⟩), hem, hoe⟩
        rw [← hem, h.eq_of_ticket he hc het]
    · cases hdw

/-! ## Steps -/

theorem coherent_enter (h : l.Coherent) (ht : ∀ c ∈ l.claims, c.ticket ≠ t) :
    (l.enter t k).Coherent := by
  rw [enter_eq]
  refine coherent_handOver (tidy_queued h ht) fun c hc hw hm => ?_
  rw [queued_claims, List.mem_append, List.mem_singleton] at hc
  rcases hc with hc | rfl
  · refine isOwned_mono (fun d hd _ => ?_) (h.served c hc hw)
    rw [queued_claims]
    exact List.mem_append_left _ hd
  · exact absurd rfl hm

theorem coherent_resume (h : l.Coherent) (t : τ) : (l.resume t).Coherent := by
  unfold resume
  split
  · rename_i hp
    obtain ⟨c, hc, rfl, hg⟩ := mem_of_phaseOf hp
    have ho : c.owns := owns_iff.mpr (.inl hg)
    refine ⟨h.toTidy.withPhase_owner hc ho .holding, fun d hd hw => ?_⟩
    rcases mem_withPhase.mp hd with ⟨hd, -⟩ | ⟨e, -, -, rfl⟩
    · obtain ⟨e, he, hm, hoe⟩ := isOwned_iff.mp (h.served d hd hw)
      by_cases het : e.ticket = c.ticket
      · exact isOwned_iff.mpr ⟨{ e with phase := .holding }, mem_withPhase.mpr (.inr ⟨e, he, het, rfl⟩),
          hm, rfl⟩
      · exact isOwned_iff.mpr ⟨e, mem_withPhase.mpr (.inl ⟨he, het⟩), hm, hoe⟩
    · cases hw
  · exact h

theorem coherent_release (h : l.Coherent) (t : τ) : (l.release t).Coherent := by
  unfold release
  split
  · rename_i c hf
    split
    · rename_i hp
      obtain ⟨hc, rfl⟩ := of_find?_ticket hf
      have ho : c.owns := owns_iff.mpr (.inr hp)
      refine coherent_handOver (h.toTidy.withPhase_owner hc ho .leaving) fun d hd hw hm => ?_
      rcases mem_withPhase.mp hd with ⟨hd, -⟩ | ⟨e, -, -, rfl⟩
      · obtain ⟨e, he, hem, hoe⟩ := isOwned_iff.mp (h.served d hd hw)
        refine isOwned_iff.mpr ⟨e, mem_withPhase.mpr (.inl ⟨he, fun het => hm ?_⟩), hem, hoe⟩
        rw [← hem, h.eq_of_ticket he hc het]
      · cases hw
    · exact h
  · exact h

theorem Tidy.drop (h : l.Tidy) (t : τ) : (l.drop t).Tidy := by
  have hmem {c : Claim τ} (hc : c ∈ (l.drop t).claims) : c ∈ l.claims :=
    (List.mem_filter.mp hc).1
  exact ⟨h.tickets.sublist (List.filter_sublist.map _), fun c hc => h.mapped c (hmem hc), h.apart,
    h.made, fun c hc d hd => h.owner c (hmem hc) d (hmem hd)⟩

theorem servedBut_drop (h : l.Coherent) {c : Claim τ} (hc : c ∈ l.claims) :
    (l.drop c.ticket).ServedBut c.mutex := by
  intro d hd hw hm
  have hd := (List.mem_filter.mp hd).1
  obtain ⟨e, he, hem, hoe⟩ := isOwned_iff.mp (h.served d hd hw)
  refine isOwned_iff.mpr ⟨e, List.mem_filter.mpr ⟨he, decide_eq_true fun het => hm ?_⟩, hem, hoe⟩
  rw [← hem, h.eq_of_ticket he hc het]

theorem coherent_drop (h : l.Coherent) {c : Claim τ} (hc : c ∈ l.claims) (ho : ¬ c.owns) :
    (l.drop c.ticket).Coherent := by
  refine ⟨h.toTidy.drop _, fun d hd hw => ?_⟩
  refine isOwned_mono (fun e he hoe => ?_) (h.served d (List.mem_filter.mp hd).1 hw)
  refine List.mem_filter.mpr ⟨he, decide_eq_true fun het => ho ?_⟩
  rwa [← h.eq_of_ticket he hc het]

theorem coherent_prune (h : l.Coherent) (t : τ) : (l.prune t).Coherent := by
  unfold prune
  split
  · rename_i c hf
    obtain ⟨hc, rfl⟩ := of_find?_ticket hf
    split
    · rename_i hp
      have hd : (l.drop c.ticket).Coherent := coherent_drop h hc (not_owns (.inr hp))
      dsimp only
      split
      · rename_i m hm
        split
        · exact hd
        · rename_i hnone
          -- an entry that goes is one that no claim refers to
          refine ⟨⟨hd.tickets, fun d hdm hr => ?_, fun k k' m' h₁ h₂ => ?_, fun k m' h₁ => ?_,
            hd.owner⟩, hd.served⟩
          · have hmap := hd.mapped d hdm hr
            refine (Table.get?_erase _ _ _).trans ((if_neg fun hk => hnone ?_).trans hmap)
            rw [hk, hm] at hmap
            exact List.any_eq_true.mpr ⟨d, hdm, by simp [Option.some.inj hmap, hr]⟩
          · rw [Table.get?_erase] at h₁ h₂
            split at h₁
            · cases h₁
            · split at h₂
              · cases h₂
              · exact hd.apart k k' m' h₁ h₂
          · rw [Table.get?_erase] at h₁
            split at h₁
            · cases h₁
            · exact hd.made k m' h₁
      · exact hd
    · exact h
  · exact h

theorem coherent_cancel (h : l.Coherent) (t : τ) : (l.cancel t).Coherent := by
  unfold cancel
  split
  · rename_i c hf
    obtain ⟨hc, rfl⟩ := of_find?_ticket hf
    split
    · rename_i hp
      exact coherent_drop h hc (not_owns (.inl hp))
    · exact coherent_handOver (h.toTidy.drop _) (servedBut_drop h hc)
    · exact coherent_release h _
    · exact h
  · exact h

/-! ## Claims after a step -/

/-- A claim that has not moved, or that has been given the mutex it waited for. -/
structure Moved (c d : Claim τ) : Prop where
  ticket : d.ticket = c.ticket
  key : d.key = c.key
  phase : d.phase = c.phase ∨ c.phase = .waiting ∧ d.phase = .granted

omit [DecidableEq τ] in
theorem moved_refl (c : Claim τ) : Moved c c := ⟨rfl, rfl, .inl rfl⟩

theorem moved_handOver (h : l.Tidy) (m : Nat) :
    (∀ d ∈ (l.handOver m).claims, ∃ c ∈ l.claims, Moved c d) ∧
      ∀ c ∈ l.claims, ∃ d ∈ (l.handOver m).claims, Moved c d := by
  rcases handOver_cases h m with ⟨heq, -⟩ | ⟨c, hc, -, hw, -, heq⟩
  · rw [heq]
    exact ⟨fun d hd => ⟨d, hd, moved_refl d⟩, fun c hc => ⟨c, hc, moved_refl c⟩⟩
  · have hmoved : Moved c { c with phase := .granted } := ⟨rfl, rfl, .inr ⟨hw, rfl⟩⟩
    rw [heq]
    constructor
    · intro d hd
      rcases mem_withPhase.mp hd with ⟨hd, -⟩ | ⟨e, he, ht, rfl⟩
      · exact ⟨d, hd, moved_refl d⟩
      · rw [h.eq_of_ticket he hc ht]
        exact ⟨c, hc, hmoved⟩
    · intro d hd
      by_cases ht : d.ticket = c.ticket
      · rw [h.eq_of_ticket hd hc ht]
        exact ⟨_, mem_withPhase.mpr (.inr ⟨c, hc, rfl, rfl⟩), hmoved⟩
      · exact ⟨d, mem_withPhase.mpr (.inl ⟨hd, ht⟩), moved_refl d⟩

theorem prune_claims (h : l.Tidy) {c : Claim τ} (hc : c ∈ l.claims) (hp : c.phase = .leaving) :
    (l.prune c.ticket).claims = l.claims.filter (·.ticket ≠ c.ticket) := by
  unfold prune
  rw [find?_ticket h hc]
  dsimp only
  rw [if_pos hp]
  split
  · split <;> rfl
  · rfl

/-- When a holder has let go and looked after the entry, its claim is gone, and at most one other
claim has moved. -/
theorem moved_leave (h : l.Coherent) {c : Claim τ} (hc : c ∈ l.claims) (hp : c.phase = .holding) :
    (∀ e ∈ ((l.release c.ticket).prune c.ticket).claims,
        e.ticket ≠ c.ticket ∧ ∃ d ∈ l.claims, Moved d e) ∧
      ∀ d ∈ l.claims, d.ticket ≠ c.ticket →
        ∃ e ∈ ((l.release c.ticket).prune c.ticket).claims, Moved d e := by
  have hrel : l.release c.ticket = (l.withPhase c.ticket .leaving).handOver c.mutex := by
    rw [release, find?_ticket h.toTidy hc]
    exact if_pos hp
  obtain ⟨hback, hforth⟩ := moved_handOver
    (h.toTidy.withPhase_owner hc (owns_iff.mpr (.inr hp)) .leaving) c.mutex
  rw [← hrel] at hback hforth
  obtain ⟨c', hc', hm⟩ := hforth _ (mem_withPhase.mpr (.inr ⟨c, hc, rfl, rfl⟩))
  have hp' : c'.phase = .leaving := by
    rcases hm.phase with h | ⟨h, -⟩
    · exact h
    · cases h
  have ht : c'.ticket = c.ticket := hm.ticket
  rw [← ht, prune_claims (ht ▸ (coherent_release h c.ticket).toTidy) (ht ▸ hc') hp']
  constructor
  · intro e he
    obtain ⟨he, hne⟩ := List.mem_filter.mp he
    have hne : e.ticket ≠ c'.ticket := of_decide_eq_true hne
    refine ⟨hne, ?_⟩
    obtain ⟨d, hd, hmd⟩ := hback e (by rwa [← ht])
    rcases mem_withPhase.mp hd with ⟨hd, -⟩ | ⟨d', -, hdt, rfl⟩
    · exact ⟨d, hd, hmd⟩
    · exact absurd (hmd.ticket.trans (hdt.trans ht.symm)) hne
  · intro d hd hne
    obtain ⟨e, he, hme⟩ := hforth d (mem_withPhase.mpr (.inl ⟨hd, ht ▸ hne⟩))
    refine ⟨e, List.mem_filter.mpr ⟨by rwa [ht], decide_eq_true ?_⟩, hme⟩
    rw [hme.ticket]
    exact hne

end CellReplay.SessionLocks
