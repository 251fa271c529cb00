import CellReplay.Proofs.Locks.Runs
import Mathlib.Data.Finset.Dedup
import Mathlib.Data.Finset.Card

/-!
# Proofs.Locks.Entries

Which sessions have a mutex in the map.

Only a call that lets go of a lock looks after the entry. One that is dropped when it has been given
the lock and has not noticed hands the mutex on and goes, and the entry of its session stays if it was
the last to need it.

* `Abandons`, `Abandoned` — a call leaves an entry behind at this step; it has, and nobody has queued
  for the session since.
* `Kept`                  — the invariant, which `kept_step` carries through a step.
* `entries_run`           — the entries are those of the sessions held, awaited or abandoned.
* `abandoned_entry_stays` — the entry of a session that nobody holds or awaits.
-/

namespace CellReplay.SessionLocks

variable {τ : Type} {l l' : SessionLocks τ} {k : SessionKey} {P Q : SessionKey → Prop}

/-- The sessions that calls hold, wait for, or are letting go of, once for each call. -/
def keys (l : SessionLocks τ) : List SessionKey := l.claims.map (·.key)

/-- No call has let go of its lock without having looked after the entry. -/
def Settled (l : SessionLocks τ) : Prop := ∀ c ∈ l.claims, c.phase ≠ .leaving

theorem mem_keys : k ∈ l.keys ↔ ∃ c ∈ l.claims, c.key = k := List.mem_map

/-- The session's last call is dropped when it has been given the lock and has not noticed. -/
def Abandons (k : SessionKey) (l : SessionLocks τ) (s : LockStep τ) : Prop :=
  ∃ c ∈ l.claims, s = .cancel c.ticket ∧ c.phase = .granted ∧ c.key = k ∧
    ∀ d ∈ l.claims, d.key = k → d = c

/-- Entries are those of sessions that calls have to do with, and of the sessions `P`, which no call
has to do with. -/
structure Kept (P : SessionKey → Prop) (l : SessionLocks τ) : Prop where
  used : ∀ k, (l.entries.get? k).isSome → P k ∨ k ∈ l.keys
  unused : ∀ k, P k → (l.entries.get? k).isSome ∧ k ∉ l.keys

theorem kept_empty : Kept (fun _ => False) (empty : SessionLocks τ) where
  used := fun _ h => nomatch h
  unused := fun _ h => False.elim h

/-- The map stays the same, and so do the sessions that calls have to do with. -/
theorem Kept.congr (h : Kept P l) (he : l'.entries = l.entries) (hk : l'.keys = l.keys)
    (hP : ∀ k, Q k ↔ P k) : Kept Q l' := by
  refine ⟨fun k hs => ?_, fun k hq => ?_⟩
  · rw [hk, hP]
    exact h.used k (he ▸ hs)
  · rw [he, hk]
    exact h.unused k ((hP k).mp hq)

theorem handOver_entries (l : SessionLocks τ) (m : Nat) : (l.handOver m).entries = l.entries := by
  unfold handOver
  split <;> rfl

variable [DecidableEq τ]

theorem release_entries (l : SessionLocks τ) (t : τ) : (l.release t).entries = l.entries := by
  unfold release
  split
  · split
    · exact handOver_entries _ _
    · rfl
  · rfl

theorem keys_release (l : SessionLocks τ) (t : τ) : (l.release t).keys = l.keys :=
  map_release _ (fun _ _ => rfl) l t

theorem mem_keys_drop {t : τ} : k ∈ (l.drop t).keys ↔ ∃ c ∈ l.claims, c.ticket ≠ t ∧ c.key = k := by
  simp only [mem_keys, drop, List.mem_filter, decide_eq_true_eq, and_assoc]

omit [DecidableEq τ] in
theorem isSome_entry_enter (l : SessionLocks τ) (t : τ) (k₀ k : SessionKey) :
    ((l.enter t k₀).entries.get? k).isSome ↔ k₀ = k ∨ (l.entries.get? k).isSome := by
  rw [enter_eq, handOver_entries, queued]
  cases hk : l.entries.get? k₀ with
  | some m =>
    refine ⟨.inr, ?_⟩
    rintro (rfl | h)
    · rw [hk]
      rfl
    · exact h
  | none =>
    dsimp only
    rw [Table.get?_put]
    split <;> simp [*]

omit [DecidableEq τ] in
theorem kept_enter (h : Kept P l) (hco : l.Coherent) (t : τ) (k₀ : SessionKey) :
    Kept (fun k => P k ∧ k₀ ≠ k) (l.enter t k₀) := by
  obtain ⟨m, p, hc, -⟩ := enter_claims hco t k₀
  have hkeys (k : SessionKey) : k ∈ (l.enter t k₀).keys ↔ k ∈ l.keys ∨ k = k₀ := by
    simp [keys, hc]
  constructor
  · intro k hs
    rw [hkeys]
    rcases (isSome_entry_enter l t k₀ k).mp hs with rfl | hs
    · exact .inr (.inr rfl)
    · by_cases hk : k₀ = k
      · exact .inr (.inr hk.symm)
      · rcases h.used k hs with hp | hmem
        · exact .inl ⟨hp, hk⟩
        · exact .inr (.inl hmem)
  · rintro k ⟨hp, hk⟩
    obtain ⟨hs, hmem⟩ := h.unused k hp
    rw [isSome_entry_enter, hkeys, not_or]
    exact ⟨.inr hs, hmem, fun he => hk he.symm⟩

/-- A call's claim goes, and with it nothing but perhaps the entry of its session. -/
theorem Kept.gone (h : Kept P l) (hco : l.Coherent) {c : Claim τ} (hc : c ∈ l.claims)
    (hkeys : l'.keys = (l.drop c.ticket).keys)
    (he : ∀ k, k ≠ c.key → l'.entries.get? k = l.entries.get? k)
    (hQ : ∀ k, k ≠ c.key → (Q k ↔ P k))
    (hown : (l'.entries.get? c.key).isSome → Q c.key ∨ c.key ∈ l'.keys)
    (hout : Q c.key → (l'.entries.get? c.key).isSome ∧ c.key ∉ l'.keys) : Kept Q l' := by
  constructor
  · intro k hs
    by_cases hk : k = c.key
    · exact hk ▸ hown (hk ▸ hs)
    · rw [he k hk] at hs
      rw [hQ k hk, hkeys]
      refine (h.used k hs).imp_right fun hmem => ?_
      obtain ⟨d, hd, hdk⟩ := mem_keys.mp hmem
      refine mem_keys_drop.mpr ⟨d, hd, fun hdt => hk ?_, hdk⟩
      rw [← hdk, hco.toTidy.eq_of_ticket hd hc hdt]
  · intro k hq
    by_cases hk : k = c.key
    · exact hk ▸ hout (hk ▸ hq)
    · rw [he k hk, hkeys]
      obtain ⟨hs, hmem⟩ := h.unused k ((hQ k hk).mp hq)
      exact ⟨hs, fun hdrop => hmem ((map_drop_sublist _ l c.ticket).subset hdrop)⟩

omit [DecidableEq τ] in
theorem Kept.not_of_claim (h : Kept P l) {c : Claim τ} (hc : c ∈ l.claims) : ¬ P c.key :=
  fun hp => (h.unused c.key hp).2 (mem_keys.mpr ⟨c, hc, rfl⟩)

/-- A call that has let go leaves the entry of its session to those that refer to the mutex there. -/
theorem kept_prune (h : Kept P l) (hco : l.Coherent) (t : τ) : Kept P (l.prune t) := by
  unfold prune
  split
  · rename_i c hf
    obtain ⟨hc, rfl⟩ := of_find?_ticket hf
    have hout : ¬ P c.key := h.not_of_claim hc
    split
    · dsimp only
      split
      · rename_i m hm
        split
        · rename_i hany
          refine h.gone hco hc rfl (fun _ _ => rfl) (fun _ _ => Iff.rfl) (fun _ => .inr ?_)
            fun hp => absurd hp hout
          obtain ⟨d, hd, hdm⟩ := List.any_eq_true.mp hany
          simp only [Bool.and_eq_true, decide_eq_true_eq] at hdm
          have hmap := hco.mapped d (List.mem_filter.mp hd).1 hdm.2
          exact mem_keys.mpr ⟨d, hd, hco.apart _ _ _ hmap (hdm.1 ▸ hm)⟩
        · refine h.gone hco hc rfl (fun k hk => ?_) (fun _ _ => Iff.rfl) (fun hs => ?_)
            fun hp => absurd hp hout
          · exact (Table.get?_erase _ _ _).trans (if_neg hk)
          · rw [Table.get?_erase, if_pos rfl] at hs
            cases hs
      · rename_i hnone
        refine h.gone hco hc rfl (fun _ _ => rfl) (fun _ _ => Iff.rfl) (fun hs => ?_)
          fun hp => absurd hp hout
        rw [hnone] at hs
        cases hs
    · exact h
  · exact h

omit [DecidableEq τ] in
/-- Only a call that has been given the lock and has not noticed can abandon an entry. -/
theorem not_abandons {t : τ} (ht : ∀ c ∈ l.claims, c.ticket = t → c.phase ≠ .granted)
    (k : SessionKey) : ¬ Abandons k l (.cancel t) := by
  rintro ⟨c, hc, hct, hp, -⟩
  exact ht c hc (LockStep.cancel.inj hct).symm hp

/-- A call that gives up in the line leaves the entry to the one that has the lock. -/
theorem kept_drop_waiting (h : Kept P l) (hco : l.Coherent) {c : Claim τ} (hc : c ∈ l.claims)
    (hp : c.phase = .waiting) : Kept P (l.drop c.ticket) := by
  refine h.gone hco hc rfl (fun _ _ => rfl) (fun _ _ => Iff.rfl) (fun _ => .inr ?_)
    fun hq => absurd hq (h.not_of_claim hc)
  obtain ⟨d, hd, hdm, ho⟩ := isOwned_iff.mp (hco.served c hc hp)
  have hmap := hco.mapped d hd (refers_of_owns ho)
  rw [hdm] at hmap
  refine mem_keys_drop.mpr ⟨d, hd, fun hdt => ?_, hco.apart _ _ _ hmap (hco.mapped c hc ?_)⟩
  · rw [hco.toTidy.eq_of_ticket hd hc hdt] at ho
    exact not_owns (.inl hp) ho
  · rw [refers_iff, hp]
    decide

theorem kept_drop_granted (h : Kept P l) (hco : l.Coherent) {c : Claim τ} (hc : c ∈ l.claims)
    (hp : c.phase = .granted) :
    Kept (fun k => P k ∨ Abandons k l (.cancel c.ticket))
      ((l.drop c.ticket).handOver c.mutex) := by
  have hkeys : ((l.drop c.ticket).handOver c.mutex).keys = (l.drop c.ticket).keys :=
    map_handOver _ (fun _ _ => rfl) _ _
  have hentry : (l.entries.get? c.key).isSome := by
    rw [hco.mapped c hc (by rw [refers_iff, hp]; decide)]
    rfl
  refine h.gone hco hc hkeys (fun k _ => by rw [handOver_entries]; rfl) (fun k hk => ?_)
    (fun _ => ?_) fun hq => ⟨by rw [handOver_entries]; exact hentry, ?_⟩
  · refine or_iff_left ?_
    rintro ⟨d, hd, hdc, -, hdk, -⟩
    rw [hco.toTidy.eq_of_ticket hc hd (LockStep.cancel.inj hdc), hdk] at hk
    exact hk rfl
  · by_cases hlast : ∀ d ∈ l.claims, d.key = c.key → d = c
    · exact .inl (.inr ⟨c, hc, rfl, hp, rfl, hlast⟩)
    · push Not at hlast
      obtain ⟨d, hd, hdk, hne⟩ := hlast
      rw [hkeys]
      exact .inr (mem_keys_drop.mpr ⟨d, hd, fun hdt => hne (hco.toTidy.eq_of_ticket hd hc hdt),
        hdk⟩)
  · rcases hq with hpk | ⟨d, hd, hdc, -, -, hlast⟩
    · exact absurd hpk (h.not_of_claim hc)
    · rw [hkeys, mem_keys_drop]
      rintro ⟨e, he, het, hek⟩
      rw [hlast e he hek, ← hlast c hc rfl] at het
      exact het rfl

/-- A call that is dropped leaves the entry of its session to the others, or abandons it. -/
theorem kept_cancel (h : Kept P l) (hco : l.Coherent) (t : τ) :
    Kept (fun k => P k ∨ Abandons k l (.cancel t)) (l.cancel t) := by
  have hnot {t : τ} (ht : ∀ c ∈ l.claims, c.ticket = t → c.phase ≠ .granted) (k : SessionKey) :
      P k ∨ Abandons k l (.cancel t) ↔ P k := or_iff_left (not_abandons ht k)
  have hsame {c : Claim τ} (hc : c ∈ l.claims) (hp : c.phase ≠ .granted) :
      ∀ d ∈ l.claims, d.ticket = c.ticket → d.phase ≠ .granted := by
    intro d hd hdt
    rwa [hco.toTidy.eq_of_ticket hd hc hdt]
  unfold cancel
  split
  · rename_i c hf
    obtain ⟨hc, rfl⟩ := of_find?_ticket hf
    split <;> rename_i hp
    · exact (kept_drop_waiting h hco hc hp).congr rfl rfl
        (hnot (hsame hc (by rw [hp]; decide)))
    · exact kept_drop_granted h hco hc hp
    · exact h.congr (release_entries _ _) (keys_release _ _)
        (hnot (hsame hc (by rw [hp]; decide)))
    · exact h.congr rfl rfl (hnot (hsame hc (by rw [hp]; decide)))
  · rename_i hf
    refine h.congr rfl rfl (hnot fun c hc hct => ?_)
    exact absurd (decide_eq_true hct) (List.find?_eq_none.mp hf c hc)

theorem kept_step (h : Kept P l) (hco : l.Coherent) (s : LockStep τ) :
    Kept (fun k => Abandons k l s ∨ P k ∧ s.arrival k = []) (l.step s) := by
  have hnone (hs : ∀ t, s ≠ .cancel t) (k : SessionKey) : ¬ Abandons k l s :=
    fun ⟨c, _, hc, _⟩ => hs c.ticket hc
  cases s with
  | enter t k₀ =>
    refine (kept_enter h hco t k₀).congr rfl rfl fun k => ?_
    simp [hnone, LockStep.arrival]
  | resume t =>
    refine h.congr ?_ ?_ fun k => by simp [hnone, LockStep.arrival]
    · rw [step, resume]
      split <;> rfl
    · rw [step, resume]
      split
      · exact map_withPhase _ (fun _ _ => rfl) l t _
      · rfl
  | release t =>
    refine h.congr (release_entries l t) (keys_release l t) fun k => ?_
    simp [hnone, LockStep.arrival]
  | prune t =>
    refine (kept_prune h hco t).congr rfl rfl fun k => ?_
    simp [hnone, LockStep.arrival]
  | cancel t =>
    refine (kept_cancel h hco t).congr rfl rfl fun k => ?_
    simp [LockStep.arrival, or_comm]

/-! ## Runs -/

/-- The session's entry has been left behind, and nobody has queued for the session since. -/
def Abandoned (k : SessionKey) (steps : List (LockStep τ)) : Prop :=
  ∃ before s later, steps = before ++ s :: later ∧ Abandons k (empty.run before) s ∧
    ∀ s' ∈ later, s'.arrival k = []

theorem abandoned_append (k : SessionKey) (ss : List (LockStep τ)) (s : LockStep τ) :
    Abandoned k (ss ++ [s]) ↔
      Abandons k (empty.run ss) s ∨ Abandoned k ss ∧ s.arrival k = [] := by
  constructor
  · rintro ⟨before, s', later, heq, ha, hl⟩
    rcases List.eq_nil_or_concat later with rfl | ⟨later, s'', rfl⟩
    · obtain ⟨rfl, hs⟩ := List.append_inj' heq rfl
      cases hs
      exact .inl ha
    · rw [List.concat_eq_append, ← List.cons_append, ← List.append_assoc] at heq
      obtain ⟨rfl, hs⟩ := List.append_inj' heq rfl
      cases hs
      refine .inr ⟨⟨before, s', later, rfl, ha, fun x hx => hl x ?_⟩, hl s ?_⟩
      · simp [hx]
      · simp
  · rintro (ha | ⟨⟨before, s', later, rfl, ha, hl⟩, hs⟩)
    · exact ⟨ss, s, [], rfl, ha, fun _ h => nomatch h⟩
    · refine ⟨before, s', later ++ [s], by simp, ha, fun x hx => ?_⟩
      rcases List.mem_append.mp hx with hx | hx
      · exact hl x hx
      · exact List.mem_singleton.mp hx ▸ hs

theorem kept_run {steps : List (LockStep τ)} (h : (newcomers steps).Nodup) :
    Kept (fun k => Abandoned k steps) ((empty : SessionLocks τ).run steps) := by
  induction steps using List.reverseRecOn with
  | nil =>
    refine kept_empty.congr rfl rfl fun k => iff_false_intro ?_
    rintro ⟨before, s, later, heq, -⟩
    simp at heq
  | append_singleton ss s ih =>
    rw [run_append]
    have hss := nodup_newcomers h
    exact (kept_step (ih hss) (coherent_run hss).1 s).congr rfl rfl fun k => abandoned_append k ss s

/-- While no call is about to look after an entry, the sessions with an entry are those that calls
hold or wait for and those that have been abandoned; and if none has been, `len` is the number of
sessions held or awaited. -/
theorem entries_run (steps : List (LockStep τ)) (h : (newcomers steps).Nodup)
    (hs : ((empty : SessionLocks τ).run steps).Settled) :
    (∀ k, ((empty.run steps).entries.get? k).isSome ↔
        (∃ c ∈ (empty.run steps).claims, c.key = k) ∨ Abandoned k steps) ∧
      ((∀ k, ¬ Abandoned k steps) →
        (empty.run steps).len = (empty.run steps).keys.toFinset.card) := by
  have hkept := kept_run h
  have hco := (coherent_run h).1
  have hiff (k : SessionKey) : ((empty.run steps).entries.get? k).isSome ↔
      (∃ c ∈ (empty.run steps).claims, c.key = k) ∨ Abandoned k steps := by
    constructor
    · intro he
      exact (hkept.used k he).symm.imp_left mem_keys.mp
    · rintro (⟨c, hc, rfl⟩ | ha)
      · rw [hco.mapped c hc (refers_iff.mpr (hs c hc))]
        rfl
      · exact (hkept.unused k ha).1
  refine ⟨hiff, fun hnone => ?_⟩
  have hkeys : (empty.run steps).entries.keys.toFinset = (empty.run steps).keys.toFinset := by
    ext k
    rw [List.mem_toFinset, List.mem_toFinset, Table.mem_keys_iff, hiff, mem_keys]
    exact or_iff_left (hnone k)
  have hnodup : (empty.run steps).entries.keys.Nodup := (empty.run steps).entries.nodup
  rw [← hkeys, List.toFinset_card_of_nodup hnodup]
  exact (List.length_map _).symm

def heirKey : SessionKey := ⟨"python", ⟨6, by decide, by decide⟩⟩

/-- A call that waits gets the lock, and is dropped before it has noticed. -/
def droppedHeir : List (LockStep Nat) :=
  [.enter 0 heirKey, .enter 1 heirKey, .resume 0, .release 0, .prune 0, .cancel 1]

theorem settled_droppedHeir :
    ((empty : SessionLocks Nat).run droppedHeir).claims = [] ∧
      ((empty : SessionLocks Nat).run droppedHeir).Settled := by
  have hnone : ((empty : SessionLocks Nat).run droppedHeir).claims = [] := by decide +kernel
  refine ⟨hnone, fun c hc => ?_⟩
  rw [hnone] at hc
  cases hc

theorem entry_droppedHeir :
    (((empty : SessionLocks Nat).run droppedHeir).entries.get? heirKey).isSome := by
  decide +kernel

theorem entries_run_droppedHeir :
    (newcomers droppedHeir).Nodup ∧ ((empty : SessionLocks Nat).run droppedHeir).Settled ∧
      Abandoned heirKey droppedHeir := by
  obtain ⟨hnone, hs⟩ := settled_droppedHeir
  have h : (newcomers droppedHeir).Nodup := by decide
  refine ⟨h, hs, (((entries_run droppedHeir h hs).1 _).mp entry_droppedHeir).resolve_left ?_⟩
  rw [hnone]
  exact fun ⟨_, hc, _⟩ => nomatch hc

/-- An entry can outlive all calls on its session. -/
theorem abandoned_entry_stays :
    ¬ ∀ steps : List (LockStep Nat), (newcomers steps).Nodup →
      ((empty : SessionLocks Nat).run steps).Settled → ∀ k,
        (((empty : SessionLocks Nat).run steps).entries.get? k).isSome ↔
          ∃ c ∈ ((empty : SessionLocks Nat).run steps).claims, c.key = k := by
  intro hall
  obtain ⟨hnone, hs⟩ := settled_droppedHeir
  obtain ⟨c, hc, -⟩ := (hall droppedHeir (by decide) hs _).mp entry_droppedHeir
  rw [hnone] at hc
  cases hc

end CellReplay.SessionLocks
