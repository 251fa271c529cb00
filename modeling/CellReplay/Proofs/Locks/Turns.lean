import CellReplay.Proofs.Locks.Runs

/-!
# Proofs.Locks.Turns

First come, first served.

* `line`, `granted`, `gaveUp` — who waits for the lock of a session; who is given it at a step; who is
  dropped at a step while it waits.
* `turn_step`        — a step gives the lock to the head of the line or to nobody.
* `turns_run`        — those who have queued and not given up have been given the lock in that order,
  and the rest of them wait.
* `claimsOn_step`    — a step of a call leaves the claims on other sessions as they are.
* `served_in_turn`   — what holds in every state that the locks can reach.
-/

namespace CellReplay.SessionLocks

variable {τ : Type} {l b : SessionLocks τ} {t : τ} {k k' : SessionKey} {m : Nat}

def claimsOn (l : SessionLocks τ) (k : SessionKey) : List (Claim τ) := l.claims.filter (·.key = k)

def lineIn (k : SessionKey) (cs : List (Claim τ)) : List τ :=
  (cs.filter fun c => c.key = k ∧ c.phase = .waiting).map (·.ticket)

/-- The calls that wait for the lock of a session, in the order in which they queued. -/
def line (l : SessionLocks τ) (k : SessionKey) : List τ := lineIn k l.claims

theorem lineIn_append (k : SessionKey) (cs ds : List (Claim τ)) :
    lineIn k (cs ++ ds) = lineIn k cs ++ lineIn k ds := by
  simp only [lineIn, List.filter_append, List.map_append]

theorem lineIn_singleton (k : SessionKey) (c : Claim τ) :
    lineIn k [c] = if c.key = k ∧ c.phase = .waiting then [c.ticket] else [] := by
  simp only [lineIn, List.filter_cons, List.filter_nil, decide_eq_true_eq]
  split <;> rfl

theorem lineIn_eq_nil {cs : List (Claim τ)} (h : ∀ c ∈ cs, c.key = k → c.phase ≠ .waiting) :
    lineIn k cs = [] := by
  rw [lineIn, List.map_eq_nil_iff, List.filter_eq_nil_iff]
  intro c hc hw
  obtain ⟨hk, hp⟩ := of_decide_eq_true hw
  exact h c hc hk hp

theorem mem_line {t : τ} : t ∈ l.line k ↔ ∃ c ∈ l.claims, c.key = k ∧ c.phase = .waiting ∧
    c.ticket = t := by
  simp only [line, lineIn, List.mem_map, List.mem_filter, decide_eq_true_eq]
  constructor
  · rintro ⟨c, ⟨hc, hk, hp⟩, ht⟩
    exact ⟨c, hc, hk, hp, ht⟩
  · rintro ⟨c, hc, hk, hp, ht⟩
    exact ⟨c, ⟨hc, hk, hp⟩, ht⟩

variable [DecidableEq τ]

/-- Of some claims on a session, those that have been given the lock and had not before. -/
def grantedIn (l : SessionLocks τ) (k : SessionKey) (cs : List (Claim τ)) : List τ :=
  (cs.filter fun c =>
    c.key = k ∧ c.phase = .granted ∧ l.phaseOf c.ticket ≠ some .granted).map (·.ticket)

/-- The call that a step gives the lock of a session to. -/
def granted (k : SessionKey) (l : SessionLocks τ) (s : LockStep τ) : List τ :=
  l.grantedIn k (l.step s).claims

/-- The call that is dropped at a step while it waits for the lock of a session. -/
def gaveUp (k : SessionKey) (l : SessionLocks τ) : LockStep τ → List τ
  | .cancel t => if t ∈ l.line k then [t] else []
  | _ => []

theorem grantedIn_append (k : SessionKey) (cs ds : List (Claim τ)) :
    l.grantedIn k (cs ++ ds) = l.grantedIn k cs ++ l.grantedIn k ds := by
  simp only [grantedIn, List.filter_append, List.map_append]

theorem grantedIn_singleton (k : SessionKey) (c : Claim τ) :
    l.grantedIn k [c] =
      if c.key = k ∧ c.phase = .granted ∧ l.phaseOf c.ticket ≠ some .granted then [c.ticket]
      else [] := by
  simp only [grantedIn, List.filter_cons, List.filter_nil, decide_eq_true_eq]
  split <;> rfl

theorem grantedIn_eq_nil {cs : List (Claim τ)}
    (h : ∀ c ∈ cs, c.phase = .granted → l.phaseOf c.ticket = some .granted) :
    l.grantedIn k cs = [] := by
  rw [grantedIn, List.map_eq_nil_iff, List.filter_eq_nil_iff]
  intro c hc hg
  obtain ⟨-, hp, hne⟩ := of_decide_eq_true hg
  exact hne (h c hc hp)

/-! ## The line through changes of the claims -/

theorem line_withPhase (ht : ∀ c ∈ l.claims, c.ticket = t → c.phase ≠ .waiting) {p : Phase}
    (hp : p ≠ .waiting) (k : SessionKey) : (l.withPhase t p).line k = l.line k := by
  have hfilter : (l.withPhase t p).claims.filter (fun c => c.key = k ∧ c.phase = .waiting) =
      l.claims.filter fun c => c.key = k ∧ c.phase = .waiting := by
    rw [withPhase, List.filter_map]
    rw [List.filter_congr (q := fun c => decide (c.key = k ∧ c.phase = .waiting)) fun c hc => ?_]
    · refine (List.map_congr_left fun c hc => if_neg fun hct => ?_).trans (List.map_id' _)
      obtain ⟨hc, hw⟩ := List.mem_filter.mp hc
      exact ht c hc hct (of_decide_eq_true hw).2
    · dsimp only [Function.comp]
      split
      · rename_i hct
        simp [hp, ht c hc hct]
      · rfl
  rw [line, lineIn, hfilter]
  rfl

theorem line_drop (l : SessionLocks τ) (t : τ) (k : SessionKey) :
    (l.drop t).line k = (l.line k).filter (· ≠ t) := by
  rw [line, lineIn, drop, line, lineIn, List.filter_map, List.filter_filter, List.filter_filter]
  refine congrArg _ (List.filter_congr fun c _ => ?_)
  exact Bool.and_comm _ _

theorem line_drop_of_not_waiting (ht : ∀ c ∈ l.claims, c.ticket = t → c.phase ≠ .waiting)
    (k : SessionKey) : (l.drop t).line k = l.line k := by
  rw [line_drop, List.filter_eq_self]
  intro u hu
  obtain ⟨c, hc, -, hw, rfl⟩ := mem_line.mp hu
  exact decide_eq_true fun hct => ht c hc hct hw

/-- A mutex that is handed over goes to the head of the line. -/
theorem granted_handOver (h : b.Tidy)
    (hg : ∀ c ∈ b.claims, c.phase = .granted → l.phaseOf c.ticket = some .granted)
    (hw : ∀ c ∈ b.claims, c.phase = .waiting → l.phaseOf c.ticket ≠ some .granted)
    (m : Nat) (k : SessionKey) :
    l.grantedIn k (b.handOver m).claims ++ (b.handOver m).line k = b.line k := by
  unfold handOver
  split
  · rw [grantedIn_eq_nil hg, List.nil_append]
  · rcases grantFirst_cases m b.claims with ⟨-, heq⟩ | ⟨pre, c, post, hb, hm, hcw, hpre, heq⟩
    · rw [heq, grantedIn_eq_nil hg, List.nil_append]
    · have hin {d : Claim τ} (hd : d ∈ pre ∨ d = c ∨ d ∈ post) : d ∈ b.claims := by
        rw [hb, List.mem_append, List.mem_cons]
        exact hd
      have hgpre : l.grantedIn k pre = [] := grantedIn_eq_nil fun d hd => hg d (hin (.inl hd))
      have hgpost : l.grantedIn k post = [] :=
        grantedIn_eq_nil fun d hd => hg d (hin (.inr (.inr hd)))
      have hnot : l.phaseOf c.ticket ≠ some .granted := hw c (hin (.inr (.inl rfl))) hcw
      rw [heq, line, line, hb, List.append_cons pre, List.append_cons pre c]
      simp only [grantedIn_append, lineIn_append, grantedIn_singleton,
        lineIn_singleton, hgpre, hgpost, hcw, List.append_nil, List.nil_append]
      by_cases hk : c.key = k
      · -- nobody before it waits for this session, as that would be for this mutex
        have hfirst : lineIn k pre = [] := lineIn_eq_nil fun d hd hdk hdw => by
          refine hpre d hd ⟨?_, hdw⟩
          have hdm := h.mapped d (hin (.inl hd)) (by rw [refers_iff, hdw]; decide)
          have hcm := h.mapped c (hin (.inr (.inl rfl))) (by rw [refers_iff, hcw]; decide)
          rw [hdk, ← hk, hcm] at hdm
          rw [← hm]
          exact (Option.some.inj hdm).symm
        simp [hfirst, hk, hnot]
      · simp [hk]

/-! ## A step -/

theorem phaseOf_granted (h : l.Tidy) {c : Claim τ} (hc : c ∈ l.claims) (hg : c.phase = .granted) :
    l.phaseOf c.ticket = some .granted := by rw [phaseOf_of_mem h hc, hg]

theorem phaseOf_not_granted (h : l.Tidy) {c : Claim τ} (hc : c ∈ l.claims)
    (hg : c.phase ≠ .granted) : l.phaseOf c.ticket ≠ some .granted := by
  rw [phaseOf_of_mem h hc]
  exact fun he => hg (Option.some.inj he)

omit [DecidableEq τ] in
theorem not_waiting_of_mem (h : l.Tidy) {c : Claim τ} (hc : c ∈ l.claims)
    (hp : c.phase ≠ .waiting) : ∀ d ∈ l.claims, d.ticket = c.ticket → d.phase ≠ .waiting := by
  intro d hd ht
  rwa [h.eq_of_ticket hd hc ht]

theorem prune_eq_self (h : l.phaseOf t ≠ some .leaving) : l.prune t = l := by
  unfold prune
  split
  · rename_i c hf
    refine if_neg fun hp => h ?_
    rw [phaseOf, hf, Option.map_some, hp]
  · rfl

theorem turn_enter (h : l.Coherent) (ht : ∀ c ∈ l.claims, c.ticket ≠ t) (k k' : SessionKey) :
    l.line k ++ (LockStep.enter t k').arrival k =
      l.grantedIn k (l.enter t k').claims ++ (l.enter t k').line k := by
  obtain ⟨m, p, hc, hp⟩ := enter_claims h t k'
  have hold : l.grantedIn k l.claims = [] :=
    grantedIn_eq_nil fun c hc hg => phaseOf_granted h.toTidy hc hg
  have hnone : l.phaseOf t = none := phaseOf_eq_none_iff.mpr ht
  rw [line, line, hc, grantedIn_append, lineIn_append, grantedIn_singleton, lineIn_singleton, hold]
  rcases hp with rfl | rfl
  · simp [LockStep.arrival]
  · by_cases hk : k' = k
    · subst hk
      -- a new claim is given the lock only if nobody waits
      have hempty : lineIn k' l.claims = [] := lineIn_eq_nil fun d hd hdk hdw => by
        have hco : (l.enter t k').Coherent := coherent_enter h ht
        obtain ⟨e, he, hem, hoe⟩ := isOwned_iff.mp (h.served d hd hdw)
        have hek : e.key = k' := by
          have hmap := h.mapped d hd (by rw [refers_iff, hdw]; decide)
          rw [← hdk]
          exact h.apart _ _ _ (h.mapped e he (refers_of_owns hoe)) (hem ▸ hmap)
        have hnew := hco.toTidy.owner_of_key (c := e) (d := ⟨t, k', m, .granted⟩)
          (by rw [hc]; exact List.mem_append_left _ he) (by rw [hc]; simp) hoe rfl hek
        exact ht e he (by rw [hnew])
      simp [hempty, LockStep.arrival, hnone]
    · simp [LockStep.arrival, hk]

theorem turn_release (h : l.Coherent) (t : τ) (k : SessionKey) :
    l.line k = l.grantedIn k (l.release t).claims ++ (l.release t).line k := by
  have hold : l.grantedIn k l.claims = [] :=
    grantedIn_eq_nil fun c hc hg => phaseOf_granted h.toTidy hc hg
  unfold release
  split
  · rename_i c hf
    split
    · rename_i hp
      obtain ⟨hc, rfl⟩ := of_find?_ticket hf
      have ho : c.owns := owns_iff.mpr (.inr hp)
      rw [granted_handOver (h.toTidy.withPhase_owner hc ho .leaving),
        line_withPhase (not_waiting_of_mem h.toTidy hc (by rw [hp]; decide)) (by decide)]
      · intro d hd hg
        rcases mem_withPhase.mp hd with ⟨hd, -⟩ | ⟨e, -, -, rfl⟩
        · exact phaseOf_granted h.toTidy hd hg
        · cases hg
      · intro d hd hw
        rcases mem_withPhase.mp hd with ⟨hd, -⟩ | ⟨e, -, -, rfl⟩
        · exact phaseOf_not_granted h.toTidy hd (by rw [hw]; decide)
        · cases hw
    · rw [hold, List.nil_append]
  · rw [hold, List.nil_append]

theorem filter_gaveUp (l : SessionLocks τ) (t : τ) (k : SessionKey) :
    (l.line k).filter (· ∉ gaveUp k l (.cancel t)) = (l.line k).filter (· ≠ t) := by
  by_cases ht : t ∈ l.line k
  · simp only [gaveUp, if_pos ht, List.mem_singleton, ne_eq]
  · simp only [gaveUp, if_neg ht, List.not_mem_nil, not_false_eq_true, decide_true,
      List.filter_true]
    refine (List.filter_eq_self.mpr fun u hu => decide_eq_true ?_).symm
    rintro rfl
    exact ht hu

theorem turn_cancel (h : l.Coherent) (t : τ) (k : SessionKey) :
    (l.line k).filter (· ≠ t) = l.grantedIn k (l.cancel t).claims ++ (l.cancel t).line k := by
  have hold : l.grantedIn k l.claims = [] :=
    grantedIn_eq_nil fun c hc hg => phaseOf_granted h.toTidy hc hg
  have hdrop {c : Claim τ} (hc : c ∈ (l.drop t).claims) : c ∈ l.claims :=
    (List.mem_filter.mp hc).1
  rw [← line_drop]
  unfold cancel
  split
  · rename_i c hf
    obtain ⟨hc, rfl⟩ := of_find?_ticket hf
    have hkeep (hp : c.phase ≠ .waiting) : (l.drop c.ticket).line k = l.line k :=
      line_drop_of_not_waiting (not_waiting_of_mem h.toTidy hc hp) k
    split <;> rename_i hp
    · rw [grantedIn_eq_nil fun d hd hg => phaseOf_granted h.toTidy (hdrop hd) hg, List.nil_append]
    · rw [granted_handOver (h.toTidy.drop _)]
      · exact fun d hd hg => phaseOf_granted h.toTidy (hdrop hd) hg
      · exact fun d hd hw => phaseOf_not_granted h.toTidy (hdrop hd) (by rw [hw]; decide)
    · rw [hkeep (by rw [hp]; decide)]
      exact turn_release h _ k
    · rw [hkeep (by rw [hp]; decide), hold, List.nil_append]
  · rename_i hf
    rw [hold, List.nil_append]
    refine line_drop_of_not_waiting (fun c hc ht => ?_) k
    exact absurd (decide_eq_true ht) (List.find?_eq_none.mp hf c hc)

theorem turn_step (h : l.Coherent) {s : LockStep τ} (hs : l.Fresh s) (k : SessionKey) :
    (l.line k ++ s.arrival k).filter (· ∉ gaveUp k l s) =
      granted k l s ++ (l.step s).line k := by
  have hold : l.grantedIn k l.claims = [] :=
    grantedIn_eq_nil fun c hc hg => phaseOf_granted h.toTidy hc hg
  cases s with
  | enter t k' =>
    rw [granted, step, ← turn_enter h (hs t (List.mem_singleton.mpr rfl))]
    simp [gaveUp]
  | resume t =>
    simp only [LockStep.arrival, gaveUp, List.append_nil, List.not_mem_nil, not_false_eq_true,
      decide_true, List.filter_true, granted, step]
    unfold resume
    split
    · rename_i hp
      obtain ⟨c, hc, rfl, hg⟩ := mem_of_phaseOf hp
      rw [line_withPhase (not_waiting_of_mem h.toTidy hc (by rw [hg]; decide)) (by decide),
        grantedIn_eq_nil, List.nil_append]
      intro d hd hdg
      rcases mem_withPhase.mp hd with ⟨hd, -⟩ | ⟨e, -, -, rfl⟩
      · exact phaseOf_granted h.toTidy hd hdg
      · cases hdg
    · rw [hold, List.nil_append]
  | release t =>
    simp only [LockStep.arrival, gaveUp, List.append_nil, List.not_mem_nil, not_false_eq_true,
      decide_true, List.filter_true, granted, step]
    exact turn_release h t k
  | prune t =>
    simp only [LockStep.arrival, gaveUp, List.append_nil, List.not_mem_nil, not_false_eq_true,
      decide_true, List.filter_true, granted, step]
    by_cases hp : l.phaseOf t = some .leaving
    · obtain ⟨c, hc, rfl, hl⟩ := mem_of_phaseOf hp
      have hcs : (l.prune c.ticket).claims = (l.drop c.ticket).claims :=
        prune_claims h.toTidy hc hl
      have hnone : l.grantedIn k (l.drop c.ticket).claims = [] :=
        grantedIn_eq_nil fun d hd hg => phaseOf_granted h.toTidy (List.mem_filter.mp hd).1 hg
      rw [hcs, hnone, List.nil_append, line, line, hcs]
      exact (line_drop_of_not_waiting
        (not_waiting_of_mem h.toTidy hc (by rw [hl]; decide)) k).symm
    · rw [prune_eq_self hp, hold, List.nil_append]
  | cancel t =>
    simp only [LockStep.arrival, List.append_nil, filter_gaveUp]
    exact turn_cancel h t k

/-! ## Runs -/

/-- The calls that queue for the lock of a session, in order. -/
def arrivals (k : SessionKey) (steps : List (LockStep τ)) : List τ :=
  steps.flatMap (LockStep.arrival k)

omit [DecidableEq τ] in
theorem arrivals_append (k : SessionKey) (ss : List (LockStep τ)) (s : LockStep τ) :
    arrivals k (ss ++ [s]) = arrivals k ss ++ s.arrival k := by
  simp [arrivals]

omit [DecidableEq τ] in
theorem arrivals_sublist (k : SessionKey) (steps : List (LockStep τ)) :
    (arrivals k steps).Sublist (newcomers steps) := by
  induction steps with
  | nil => exact .refl _
  | cons s ss ih =>
    refine List.Sublist.append ?_ ih
    cases s with
    | enter t k' =>
      rw [LockStep.arrival]
      split
      · exact .refl _
      · exact List.nil_sublist _
    | _ => exact .refl _

theorem mem_line_of_gaveUp {s : LockStep τ} (h : t ∈ gaveUp k l s) : t ∈ l.line k := by
  unfold gaveUp at h
  split at h
  · split at h
    · rename_i hl
      rwa [List.mem_singleton.mp h]
    · cases h
  · cases h

/-- Those who have queued for a lock and have not given up have been given it in the order in which
they queued, or still wait in that order. -/
theorem turns_run {steps : List (LockStep τ)} (h : (newcomers steps).Nodup) (k : SessionKey) :
    (arrivals k steps).filter (· ∉ trace (gaveUp k) empty steps) =
        trace (granted k) empty steps ++ (empty.run steps).line k ∧
      ∀ t ∈ trace (gaveUp k) empty steps, t ∈ arrivals k steps := by
  induction steps using List.reverseRecOn with
  | nil => exact ⟨rfl, fun _ ht => nomatch ht⟩
  | append_singleton ss s ih =>
    obtain ⟨heq, hsub⟩ := ih (nodup_newcomers h)
    have hturn := turn_step (coherent_run (nodup_newcomers h)).1 (fresh_run h) k
    have hall : (arrivals k ss ++ s.arrival k).Nodup := by
      rw [← arrivals_append]
      exact h.sublist (arrivals_sublist k _)
    obtain ⟨hnodup, -, hapart⟩ := List.nodup_append.mp hall
    rw [trace_append, trace_append, run_append, arrivals_append]
    generalize hG : trace (gaveUp k) empty ss = G at *
    generalize hg : gaveUp k (empty.run ss) s = g at *
    have hline {t : τ} (ht : t ∈ (empty.run ss).line k) : t ∈ arrivals k ss := by
      have hmem : t ∈ (arrivals k ss).filter (· ∉ G) := heq ▸ List.mem_append_right _ ht
      exact (List.mem_filter.mp hmem).1
    have hgline {t : τ} (ht : t ∈ g) : t ∈ (empty.run ss).line k :=
      mem_line_of_gaveUp (s := s) (hg ▸ ht)
    constructor
    · -- who gives up now has not been given the lock before, and who arrives now has not given up
      have hgranted : (trace (granted k) empty ss).filter (· ∉ g) =
          trace (granted k) empty ss := by
        have hdisjoint := List.nodup_append.mp (heq ▸ hnodup.filter _)
        exact List.filter_eq_self.mpr fun t ht => decide_eq_true fun htg =>
          hdisjoint.2.2 t ht t (hgline htg) rfl
      have hnew : (s.arrival k).filter (· ∉ G ++ g) = (s.arrival k).filter (· ∉ g) := by
        refine List.filter_congr fun t ht => ?_
        have htG : t ∉ G := fun htG => hapart t (hsub t htG) t ht rfl
        simp [htG]
      have hold : (arrivals k ss).filter (· ∉ G ++ g) =
          ((arrivals k ss).filter (· ∉ G)).filter (· ∉ g) := by
        rw [List.filter_filter]
        refine List.filter_congr fun t _ => ?_
        simp [not_or, Bool.and_comm]
      rw [List.filter_append, hnew, hold, heq, List.filter_append, hgranted, List.append_assoc,
        List.append_assoc, ← List.filter_append, hturn]
    · intro t ht
      rcases List.mem_append.mp ht with ht | ht
      · exact List.mem_append_left _ (hsub t ht)
      · exact List.mem_append_left _ (hline (hgline ht))

/-! ## Other sessions -/

/-- The step belongs to a call that has nothing to do with a session. -/
def Elsewhere (k : SessionKey) (l : SessionLocks τ) (s : LockStep τ) : Prop :=
  s.arrival k = [] ∧ ∀ c ∈ l.claims, c.ticket = s.ticket → c.key ≠ k

theorem claimsOn_withPhase (h : ∀ c ∈ l.claims, c.ticket = t → c.key ≠ k) (p : Phase) :
    (l.withPhase t p).claimsOn k = l.claimsOn k := by
  rw [claimsOn, withPhase, List.filter_map, claimsOn,
    List.filter_congr (q := fun c => decide (c.key = k)) fun c _ => ?_]
  · refine (List.map_congr_left fun c hc => if_neg fun hct => ?_).trans (List.map_id' _)
    obtain ⟨hc, hk⟩ := List.mem_filter.mp hc
    exact h c hc hct (of_decide_eq_true hk)
  · dsimp only [Function.comp]
    split <;> rfl

theorem claimsOn_drop (h : ∀ c ∈ l.claims, c.ticket = t → c.key ≠ k) :
    (l.drop t).claimsOn k = l.claimsOn k := by
  rw [claimsOn, drop, claimsOn, List.filter_filter]
  refine List.filter_congr fun c hc => ?_
  by_cases ht : c.ticket = t
  · simp [h c hc ht]
  · simp [ht]

theorem claimsOn_handOver (h : l.Tidy) (hm : l.entries.get? k' = some m) (hk : k' ≠ k) :
    (l.handOver m).claimsOn k = l.claimsOn k := by
  rcases handOver_cases h m with ⟨heq, -⟩ | ⟨c, hc, hcm, hw, -, heq⟩
  · rw [heq]
  · rw [heq]
    refine claimsOn_withPhase (fun d hd hdc hdk => hk ?_) _
    rw [h.eq_of_ticket hd hc hdc] at hdk
    have hmap := h.mapped c hc (by rw [refers_iff, hw]; decide)
    rw [← hdk]
    exact h.apart _ _ _ hm (hcm ▸ hmap)

theorem claimsOn_release (h : l.Coherent) (ht : ∀ c ∈ l.claims, c.ticket = t → c.key ≠ k) :
    (l.release t).claimsOn k = l.claimsOn k := by
  unfold release
  split
  · rename_i c hf
    split
    · rename_i hp
      obtain ⟨hc, rfl⟩ := of_find?_ticket hf
      have ho : c.owns := owns_iff.mpr (.inr hp)
      rw [claimsOn_handOver (h.toTidy.withPhase_owner hc ho .leaving)
        (h.mapped c hc (refers_of_owns ho)) (ht c hc rfl), claimsOn_withPhase ht]
    · rfl
  · rfl

theorem claimsOn_prune (h : l.Tidy) (ht : ∀ c ∈ l.claims, c.ticket = t → c.key ≠ k) :
    (l.prune t).claimsOn k = l.claimsOn k := by
  by_cases hp : l.phaseOf t = some .leaving
  · obtain ⟨c, hc, rfl, hl⟩ := mem_of_phaseOf hp
    rw [claimsOn, prune_claims h hc hl]
    exact claimsOn_drop ht
  · rw [prune_eq_self hp]

/-- A step of a call leaves the claims on other sessions as they are. -/
theorem claimsOn_step (h : l.Coherent) {s : LockStep τ} (he : Elsewhere k l s) :
    (l.step s).claimsOn k = l.claimsOn k := by
  obtain ⟨ha, ht⟩ := he
  cases s with
  | enter t k' =>
    obtain ⟨m, p, hc, -⟩ := enter_claims h t k'
    have hk : k' ≠ k := fun hk => by simp [LockStep.arrival, hk] at ha
    simp [claimsOn, step, hc, hk]
  | resume t =>
    rw [step, resume]
    split
    · exact claimsOn_withPhase ht _
    · rfl
  | release t => exact claimsOn_release h ht
  | prune t => exact claimsOn_prune h.toTidy ht
  | cancel t =>
    rw [step, cancel]
    split
    · rename_i c hf
      obtain ⟨hc, rfl⟩ := of_find?_ticket hf
      split <;> rename_i hp
      · exact claimsOn_drop ht
      · have hr : c.refers := by rw [refers_iff, hp]; decide
        rw [claimsOn_handOver (h.toTidy.drop _) (h.mapped c hc hr) (ht c hc rfl)]
        exact claimsOn_drop ht
      · exact claimsOn_release h ht
      · rfl
    · rfl

/-! ## Every state -/

/-- One call at a time has the lock of a session; those who have it or wait for it refer to one mutex,
which is the one in the map and no other session's; and nobody waits for a lock that nobody has. -/
structure Orderly (l : SessionLocks τ) : Prop where
  exclusive : ∀ c ∈ l.claims, ∀ d ∈ l.claims, c.owns → d.owns → c.key = d.key → c = d
  mapped : ∀ c ∈ l.claims, c.refers → l.entries.get? c.key = some c.mutex
  apart : ∀ c ∈ l.claims, ∀ d ∈ l.claims, c.refers → d.refers → c.mutex = d.mutex → c.key = d.key
  served : ∀ c ∈ l.claims, c.phase = .waiting →
    ∃ d ∈ l.claims, d.owns ∧ d.mutex = c.mutex ∧ d.key = c.key

omit [DecidableEq τ] in
theorem Coherent.orderly (h : l.Coherent) : l.Orderly := by
  have hapart : ∀ c ∈ l.claims, ∀ d ∈ l.claims, c.refers → d.refers → c.mutex = d.mutex →
      c.key = d.key := fun c hc d hd hrc hrd hm =>
    h.apart _ _ _ (h.mapped c hc hrc) (hm ▸ h.mapped d hd hrd)
  refine ⟨fun c hc d hd => h.toTidy.owner_of_key hc hd, h.mapped, hapart, fun c hc hw => ?_⟩
  obtain ⟨d, hd, hm, ho⟩ := isOwned_iff.mp (h.served c hc hw)
  have hr : c.refers := by rw [refers_iff, hw]; decide
  exact ⟨d, hd, ho, hm, hapart d hd c hc (refers_of_owns ho) hr hm⟩

/-- After any steps of any calls, each of which queues once, the locks are orderly, those who queued
for a lock and did not give up get it first come first served, and the next step of a call changes
nothing for those who hold the lock of another session or wait for it. -/
theorem served_in_turn (steps : List (LockStep τ)) (h : (newcomers steps).Nodup) :
    ((empty : SessionLocks τ).run steps).Orderly ∧
      (∀ k, (arrivals k steps).filter (· ∉ trace (gaveUp k) empty steps) =
        trace (granted k) empty steps ++ (empty.run steps).line k) ∧
      ∀ k s, Elsewhere k (empty.run steps) s →
        ((empty.run steps).step s).claimsOn k = (empty.run steps).claimsOn k := by
  have hco : ((empty : SessionLocks τ).run steps).Coherent := (coherent_run h).1
  exact ⟨hco.orderly, fun k => (turns_run h k).1, fun k s he => claimsOn_step hco he⟩

def lineKey : SessionKey := ⟨"python", ⟨5, by decide, by decide⟩⟩

/-- Five calls, the last of them on a session of its own. The second gives up in the line, and the third
is dropped when it has been given the lock and has not noticed. -/
def brokenLine : List (LockStep Nat) :=
  [.enter 0 lineKey, .enter 1 lineKey, .resume 0, .enter 2 lineKey, .enter 3 lineKey,
    .enter 4 ⟨"shell", lineKey.id⟩, .cancel 1, .release 0, .cancel 2, .prune 0]

theorem served_in_turn_brokenLine :
    (newcomers brokenLine).Nodup ∧ ((empty : SessionLocks Nat).run brokenLine).Orderly ∧
      arrivals lineKey brokenLine = [0, 1, 2, 3] ∧
        trace (gaveUp lineKey) empty brokenLine = [1] ∧
          trace (granted lineKey) empty brokenLine ++ (empty.run brokenLine).line lineKey =
            [0, 2, 3] := by
  have h : (newcomers brokenLine).Nodup := by decide
  obtain ⟨horderly, hturns, -⟩ := served_in_turn brokenLine h
  have ha : arrivals lineKey brokenLine = [0, 1, 2, 3] := by decide
  have hg : trace (gaveUp lineKey) empty brokenLine = [1] := by decide +kernel
  refine ⟨h, horderly, ha, hg, ?_⟩
  rw [← hturns, ha, hg]
  rfl

end CellReplay.SessionLocks
