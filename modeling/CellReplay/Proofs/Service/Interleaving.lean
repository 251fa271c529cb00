import CellReplay.Proofs.Locks.Holders
import CellReplay.Proofs.Service.Discipline

/-!
# Proofs.Service.Interleaving

Programs that take turns, one effect at a time and in any order, and the invariant of such a crew:
every program stands where it would stand if those that had the lock of its session before it had
been run one after the other.

* `Crew`, `Crew.step`, `Crew.run` — programs in a world, with a log of the effects so far.
* `past`        — the sessions after some programs, one after the other.
* `Stage`       — where a single program stands.
* `Stage.frame` — a program stays there while others keep away from its session.
* `Crew.Sound`  — the invariant, which `Crew.Sound.step` and `Crew.Sound.run` keep.
-/

namespace CellReplay

structure Crew (ε α : Type) where
  programs : List (Program α)
  world : World ε
  log : List (Nat × Effect)

variable {ε α : Type}

namespace Crew

/-- One effect of one program. A program that has to wait stays where it is. -/
def step (o : Surroundings ε) (c : Crew ε α) (i : Nat) : Crew ε α :=
  match c.programs[i]? with
  | some (.perform e next) =>
    match c.world.answer o i e with
    | (some b, w) => ⟨c.programs.set i (next b), w, c.log ++ [(i, e)]⟩
    | (none, w) => { c with world := w }
  | _ => c

def run (o : Surroundings ε) (c : Crew ε α) (schedule : List Nat) : Crew ε α :=
  schedule.foldl (step o) c

theorem length_step (o : Surroundings ε) (c : Crew ε α) (i : Nat) :
    (c.step o i).programs.length = c.programs.length := by
  unfold step
  split
  · split
    · exact List.length_set
    · rfl
  · rfl

theorem length_run (o : Surroundings ε) (c : Crew ε α) (schedule : List Nat) :
    (c.run o schedule).programs.length = c.programs.length := by
  induction schedule generalizing c with
  | nil => rfl
  | cons i schedule ih => exact (ih (c.step o i)).trans (length_step o c i)

theorem step_eq {o : Surroundings ε} {c : Crew ε α} {i : Nat} {e : Effect}
    {next : e.Answer → Program α} {b : e.Answer} {w : World ε}
    (hp : c.programs[i]? = some (.perform e next)) (hb : c.world.answer o i e = (some b, w)) :
    c.step o i = ⟨c.programs.set i (next b), w, c.log ++ [(i, e)]⟩ := by
  rw [step, hp]
  simp only [hb]

/-- The crew when a program has asked for a lock and queues for it, perhaps since long. -/
def asking (c : Crew ε α) (i : Nat) (k : SessionKey) : Crew ε α :=
  let l := c.world.locks
  { c with world := { c.world with
      locks := if (l.phaseOf i).isSome then l else l.enter i k } }

section

variable {o : Surroundings ε} {c : Crew ε α} {i : Nat} {k : SessionKey}

theorem step_waiting {next : Unit → Program α}
    (hp : c.programs[i]? = some (.perform (.acquire k) next))
    (hw : (c.asking i k).world.locks.phaseOf i = some .waiting) : c.step o i = c.asking i k := by
  rw [step, hp]
  simp only [asking] at hw
  simp only [World.answer, hw, Option.some_inj, reduceCtorEq, if_false]
  rfl

theorem answer_granted (hg : (c.asking i k).world.locks.phaseOf i = some .granted) :
    c.world.answer o i (.acquire k) = (some (), { (c.asking i k).world with
      locks := (c.asking i k).world.locks.resume i }) := by
  simp only [asking] at hg
  simp only [World.answer, hg, if_true]
  rfl

theorem asking_of_some {p : Phase} (h : c.world.locks.phaseOf i = some p) : c.asking i k = c := by
  simp only [asking, h]
  rfl

theorem asking_of_none (h : c.world.locks.phaseOf i = none) : c.asking i k =
    { c with world := { c.world with locks := c.world.locks.enter i k } } := by
  simp only [asking, h]
  rfl

end

def Ended (c : Crew ε α) : Prop := ∀ p ∈ c.programs, p.value?.isSome

theorem ended_of_all {c : Crew ε α} (h : (c.programs.all (·.value?.isSome)) = true) : c.Ended :=
  fun p hp => List.all_eq_true.mp h p hp

end Crew

/-! ## Logs -/

/-- The programs that were given a lock, in that order. -/
def acquired (log : List (Nat × Effect)) : List Nat :=
  log.filterMap fun
    | (i, .acquire _) => some i
    | _ => none

/-- The program calls of those for which `P` holds, in order. -/
def callsAmong (P : Nat → Bool) (log : List (Nat × Effect)) : List Call :=
  log.flatMap fun (i, e) => if P i then e.calls else []

def callsOf (i : Nat) (log : List (Nat × Effect)) : List Call := callsAmong (· = i) log

theorem acquired_append (log : List (Nat × Effect)) (i : Nat) (e : Effect) :
    acquired (log ++ [(i, e)]) =
      acquired log ++ match e with | .acquire _ => [i] | _ => [] := by
  rw [acquired, List.filterMap_append]
  cases e <;> rfl

theorem callsAmong_append (P : Nat → Bool) (log : List (Nat × Effect)) (i : Nat) (e : Effect) :
    callsAmong P (log ++ [(i, e)]) = callsAmong P log ++ if P i then e.calls else [] := by
  simp [callsAmong]

theorem callsOf_append_self (log : List (Nat × Effect)) (i : Nat) (e : Effect) :
    callsOf i (log ++ [(i, e)]) = callsOf i log ++ e.calls := by
  simp [callsOf, callsAmong_append]

theorem callsOf_append_other {i j : Nat} (h : j ≠ i) (log : List (Nat × Effect)) (e : Effect) :
    callsOf i (log ++ [(j, e)]) = callsOf i log := by
  simp [callsOf, callsAmong_append, h]

theorem callsOf_eq_nil {i : Nat} {log : List (Nat × Effect)} (h : ∀ e ∈ log, e.1 ≠ i) :
    callsOf i log = [] :=
  List.flatMap_eq_nil_iff.mpr fun e he => if_neg (by simpa using h e he)

theorem callsAmong_congr {P Q : Nat → Bool} {log : List (Nat × Effect)}
    (h : ∀ i, P i ≠ Q i → callsOf i log = []) : callsAmong P log = callsAmong Q log := by
  refine List.flatMap_congr fun (i, e) he => ?_
  by_cases hi : P i = Q i
  · simp only [hi]
  · have hnone := List.flatMap_eq_nil_iff.mp (h i hi) (i, e) he
    have he : e.calls = [] := by simpa using hnone
    simp only [he, ite_self]

/-! ## Stages -/

section

variable (E : Setting) (M : Nat → Meaning α) (σ₀ : Sessions)

/-- The sessions after some programs, one after the other. -/
def past (is : List Nat) : Sessions := is.foldl (fun σ i => (M i).after σ) σ₀

/-- Where a program stands that is the `i`th: its lock may be ahead of it, it may have it, or it may
have let it go; or it needs none. `as` are those that were given locks so far, and `made` are the
program calls that it has made. -/
inductive Stage (l : SessionLocks Nat) (σ : Sessions) (as : List Nat) (made : List Call) (i : Nat)
    (p : Program α) : Prop
  | ahead {k : SessionKey} {turn : Option Session → Turn α} (hM : M i = .bound k turn) (ha : i ∉ as)
      (hl : ∀ k, ¬ l.Holder i k) (hmade : made = []) (hp : Awaits E k turn p)
  | inside {k : SessionKey} {turn : Option Session → Turn α} {before later : List Nat}
      {calls : List Call} (hM : M i = .bound k turn) (ha : as = before ++ i :: later)
      (hlater : ∀ j ∈ later, (M j).key? ≠ some k) (hl : ∀ k', l.Holder i k' ↔ k' = k)
      (hmade : made ++ calls = (turn (past M σ₀ before k)).calls)
      (hp : Follows E (some k) p (σ k) calls (turn (past M σ₀ before k)).value
        (turn (past M σ₀ before k)).session)
  | behind {k : SessionKey} {turn : Option Session → Turn α} {before later : List Nat}
      (hM : M i = .bound k turn) (ha : as = before ++ i :: later) (hl : ∀ k, ¬ l.Holder i k)
      (hmade : made = (turn (past M σ₀ before k)).calls)
      (hp : Follows E none p none [] (turn (past M σ₀ before k)).value none)
  | free {calls rest : List Call} {a : α} (hM : M i = .free calls a) (hl : ∀ k, ¬ l.Holder i k)
      (hmade : made ++ rest = calls) (hp : Follows E none p none rest a none)

variable {E M σ₀}

theorem past_append (as bs : List Nat) :
    past M σ₀ (as ++ bs) = past M (past M σ₀ as) bs := List.foldl_append

theorem after_other {N : Meaning α} {k : SessionKey} (h : N.key? ≠ some k) (σ : Sessions) :
    N.after σ k = σ k := by
  cases N with
  | free _ _ => rfl
  | bound k' turn => exact if_neg fun hk => h (by rw [hk]; rfl)

theorem past_others {k : SessionKey} {is : List Nat} (h : ∀ i ∈ is, (M i).key? ≠ some k)
    (σ : Sessions) : past M σ is k = σ k := by
  induction is generalizing σ with
  | nil => rfl
  | cons i is ih =>
    have hrest := ih (fun j hj => h j (List.mem_cons_of_mem i hj)) ((M i).after σ)
    exact hrest.trans (after_other (h i List.mem_cons_self) σ)

theorem past_last {k : SessionKey} {turn : Option Session → Turn α} {before later : List Nat} {i : Nat}
    (hM : M i = .bound k turn) (hlater : ∀ j ∈ later, (M j).key? ≠ some k) :
    past M σ₀ (before ++ i :: later) k = (turn (past M σ₀ before k)).session := by
  rw [past_append]
  refine (past_others hlater _).trans ?_
  change (M i).after (past M σ₀ before) k = _
  rw [hM]
  exact if_pos rfl

/-- A program stays where it is while others go on, as long as they keep away from its session. -/
theorem Stage.frame {l l' : SessionLocks Nat} {σ σ' : Sessions} {as bs : List Nat} {made : List Call}
    {i : Nat} {p : Program α} (h : Stage E M σ₀ l σ as made i p)
    (hl : ∀ k, l'.Holder i k ↔ l.Holder i k) (hσ : ∀ k, l.Holder i k → σ' k = σ k)
    (hi : i ∉ bs) (hbs : ∀ k, l.Holder i k → ∀ j ∈ bs, (M j).key? ≠ some k) :
    Stage E M σ₀ l' σ' (as ++ bs) made i p := by
  cases h with
  | ahead hM ha hno hmade hp =>
    refine .ahead hM (fun h => ?_) (fun k h => hno k ((hl k).mp h)) hmade hp
    rcases List.mem_append.mp h with h | h
    · exact ha h
    · exact hi h
  | @inside k turn before later calls hM ha hlater hheld hmade hp =>
    have hk := (hheld k).mpr rfl
    have ha' : as ++ bs = before ++ i :: (later ++ bs) := by rw [ha]; simp
    refine .inside hM ha' (fun j hj => ?_) (fun k' => (hl k').trans (hheld k')) hmade
      (by rw [hσ k hk]; exact hp)
    rcases List.mem_append.mp hj with hj | hj
    · exact hlater j hj
    · exact hbs k hk j hj
  | @behind k turn before later hM ha hno hmade hp =>
    have ha' : as ++ bs = before ++ i :: (later ++ bs) := by rw [ha]; simp
    exact .behind hM ha' (fun k h => hno k ((hl k).mp h)) hmade hp
  | free hM hno hmade hp => exact .free hM (fun k h => hno k ((hl k).mp h)) hmade hp

theorem follows_plain {held : Option SessionKey} {e : Effect} {next : e.Answer → Program α}
    {x y : Option Session} {calls : List Call} {a : α} (he : E.Plain e)
    (h : Follows E held (.perform e next) x calls a y) :
    e.Within held ∧ ∃ rest, calls = e.calls ++ rest ∧ ∀ σ b, (∀ k ∈ held, σ k = x) →
      E.Says σ e b → Follows E held (next b) (e.left x) rest a y := by
  cases h with
  | step _ hw h => exact ⟨hw, _, rfl, h⟩
  | release _ => exact he.elim

theorem not_follows_acquire {held : Option SessionKey} {k : SessionKey} {next : Unit → Program α}
    {x y : Option Session} {calls : List Call} {a : α} :
    ¬ Follows E held (.perform (.acquire k) next) x calls a y := by
  intro h
  cases h with
  | step he _ _ => exact he

theorem follows_release {held : Option SessionKey} {k : SessionKey} {next : Unit → Program α}
    {x y : Option Session} {calls : List Call} {a : α}
    (h : Follows E held (.perform (.release k) next) x calls a y) :
    held = some k ∧ calls = [] ∧ y = x ∧ Follows E none (next ()) none [] a none := by
  cases h with
  | step he _ _ => exact he.elim
  | release h => exact ⟨rfl, rfl, rfl, h⟩

/-! ## The invariant -/

theorem lt_of_getElem? {ps : List (Program α)} {p : Program α} {i : Nat} (h : ps[i]? = some p) :
    i < ps.length := (List.getElem?_eq_some_iff.mp h).1

/-- The program that a claim is for is there, and asks for the lock unless it holds it. -/
structure Claim.Backed (d : Claim Nat) (ps : List (Program α)) : Prop where
  lt : d.ticket < ps.length
  asks : d.phase = .holding ∨ (d.phase = .waiting ∨ d.phase = .granted) ∧
    ∃ next, ps[d.ticket]? = some (.perform (.acquire d.key) next)

namespace Claim.Backed

variable {ps : List (Program α)} {d e : Claim Nat} {i : Nat}

theorem next_of_granted (h : d.Backed ps) (hg : d.phase = .granted) :
    ∃ next, ps[d.ticket]? = some (.perform (.acquire d.key) next) := by
  rcases h.asks with hh | ⟨-, hnext⟩
  · rw [hg] at hh
    cases hh
  · exact hnext

theorem set (h : d.Backed ps) (hi : d.phase ≠ .holding → d.ticket ≠ i) (q : Program α) :
    d.Backed (ps.set i q) := by
  refine ⟨by rw [List.length_set]; exact h.lt, ?_⟩
  by_cases hh : d.phase = .holding
  · exact .inl hh
  · obtain ⟨hphase, next, hnext⟩ := h.asks.resolve_left hh
    exact .inr ⟨hphase, next, by rw [List.getElem?_set_ne (hi hh).symm]; exact hnext⟩

theorem append (h : d.Backed ps) (qs : List (Program α)) : d.Backed (ps ++ qs) := by
  refine ⟨by rw [List.length_append]; exact Nat.lt_add_right _ h.lt, h.asks.imp id ?_⟩
  rintro ⟨hphase, next, hnext⟩
  exact ⟨hphase, next, (List.getElem?_append_left h.lt).trans hnext⟩

theorem moved (h : d.Backed ps) (hm : SessionLocks.Moved d e) : e.Backed ps := by
  refine ⟨hm.ticket ▸ h.lt, ?_⟩
  rw [hm.ticket, hm.key]
  rcases hm.phase with heq | ⟨hw, hg⟩
  · rw [heq]
    exact h.asks
  · rcases h.asks with hh | ⟨-, hnext⟩
    · rw [hw] at hh
      cases hh
    · exact .inr ⟨.inr hg, hnext⟩

end Claim.Backed

section

variable {l : SessionLocks Nat} {ps : List (Program α)} {i : Nat}

/-- A program that goes on without asking for a lock does not change what the claims are for. -/
theorem backed_set (h : ∀ d ∈ l.claims, d.Backed ps) {e : Effect} {next : e.Answer → Program α}
    (hp : ps[i]? = some (.perform e next)) (he : ∀ k, e ≠ .acquire k) (q : Program α) :
    ∀ d ∈ l.claims, d.Backed (ps.set i q) := by
  intro d hd
  refine (h d hd).set (fun hh hdi => ?_) q
  obtain ⟨-, next', hnext⟩ := (h d hd).asks.resolve_left hh
  rw [hdi, hp] at hnext
  cases hnext
  exact he _ rfl

theorem backed_enter (hl : l.Coherent) (h : ∀ d ∈ l.claims, d.Backed ps) {k : SessionKey}
    {next : Unit → Program α} (hp : ps[i]? = some (.perform (.acquire k) next)) :
    ∀ d ∈ (l.enter i k).claims, d.Backed ps := by
  intro d hd
  obtain ⟨mutex, phase, hclaims, hphase⟩ := SessionLocks.enter_claims hl i k
  rw [hclaims, List.mem_append] at hd
  rcases hd with hd | hd
  · exact h d hd
  · cases List.mem_singleton.mp hd
    exact ⟨lt_of_getElem? hp, .inr ⟨hphase, next, hp⟩⟩

theorem backed_resume (hl : l.Coherent) (h : ∀ d ∈ l.claims, d.Backed ps) {d : Claim Nat}
    (hd : d ∈ l.claims) (hg : d.phase = .granted) (q : Program α) :
    ∀ e ∈ (l.resume d.ticket).claims, e.Backed (ps.set d.ticket q) := by
  intro e he
  have hresume : l.resume d.ticket = l.withPhase d.ticket .holding :=
    if_pos ((SessionLocks.phaseOf_of_mem hl.toTidy hd).trans (congrArg some hg))
  rw [hresume, SessionLocks.mem_withPhase] at he
  rcases he with ⟨he, hne⟩ | ⟨e', he', -, rfl⟩
  · exact (h e he).set (fun _ => hne) _
  · exact ⟨by rw [List.length_set]; exact (h e' he').lt, .inl rfl⟩

theorem backed_leave (hl : l.Coherent) (h : ∀ d ∈ l.claims, d.Backed ps) {d : Claim Nat}
    (hd : d ∈ l.claims) (hh : d.phase = .holding) (q : Program α) :
    ∀ e ∈ ((l.release d.ticket).prune d.ticket).claims, e.Backed (ps.set d.ticket q) := by
  intro e he
  obtain ⟨hne, e', he', hm⟩ := (SessionLocks.moved_leave hl hd hh).1 e he
  exact ((h e' he').moved hm).set (fun _ => hne) _

/-- The claim of a program that asks for a lock, in the queue or not before, is for that lock. -/
theorem key_of_granted (h : ∀ d ∈ l.claims, d.Backed ps) {k : SessionKey}
    {next : Unit → Program α} {d : Claim Nat} (hd : d ∈ l.claims)
    (hp : ps[d.ticket]? = some (.perform (.acquire k) next)) (hg : d.phase = .granted) :
    d.key = k := by
  obtain ⟨next', hnext⟩ := (h d hd).next_of_granted hg
  rw [hp] at hnext
  cases hnext
  rfl

end

/-- Once it has asked for a lock, a program that has none has a claim, and it waits or has been given
the lock. -/
theorem Crew.exists_claim {c : Crew ε α} {i : Nat} {k : SessionKey}
    (hl : c.world.locks.Coherent) (h : ∀ d ∈ c.world.locks.claims, d.Backed c.programs)
    (hno : ∀ k, ¬ c.world.locks.Holder i k) :
    ∃ d ∈ (c.asking i k).world.locks.claims,
      d.ticket = i ∧ (d.phase = .waiting ∨ d.phase = .granted) := by
  cases hphase : c.world.locks.phaseOf i with
  | some phase =>
    obtain ⟨d, hd, rfl, -⟩ := SessionLocks.mem_of_phaseOf hphase
    rw [asking_of_some hphase]
    refine ⟨d, hd, rfl, ?_⟩
    rcases (h d hd).asks with hh | ⟨hphase, -⟩
    · exact absurd ⟨d, hd, rfl, rfl, hh⟩ (hno d.key)
    · exact hphase
  | none =>
    obtain ⟨mutex, phase, hclaims, hphase'⟩ := SessionLocks.enter_claims hl i k
    rw [asking_of_none hphase]
    refine ⟨⟨i, k, mutex, phase⟩, ?_, rfl, hphase'⟩
    rw [hclaims]
    exact List.mem_append_right _ (List.mem_singleton_self _)

variable (E M σ₀) in
/-- Every program stands where it should, `m` being what is stored. -/
structure Crew.Sound (c : Crew ε α) (m : MemoryStore) : Prop where
  meets : c.world.Meets E m
  coherent : c.world.locks.Coherent
  nodup : (acquired c.log).Nodup
  bound : ∀ i ∈ acquired c.log, i < c.programs.length ∧ (M i).key? ≠ none
  claims : ∀ d ∈ c.world.locks.claims, d.Backed c.programs
  stages : ∀ i p, c.programs[i]? = some p → Stage E M σ₀ c.world.locks m.sessions.get?
    (acquired c.log) (callsOf i c.log) i p
  resting : ∀ k, (∀ i, ¬ c.world.locks.Holder i k) →
    m.sessions.get? k = past M σ₀ (acquired c.log) k
  calls : ∀ k, callsAmong (fun i => (M i).key? = some k) c.log =
    ((acquired c.log).filter fun i => (M i).key? = some k).flatMap (callsOf · c.log)

variable {o : Surroundings ε} {c : Crew ε α} {m : MemoryStore} {i j : Nat}

/-- The program calls of a session are those of the programs that had its lock, one after the other,
also when the last of them has made one more. -/
theorem calls_append {as : List Nat} {log : List (Nat × Effect)} {e : Effect} {k : SessionKey}
    (h : callsAmong (fun i => (M i).key? = some k) log =
      (as.filter fun i => (M i).key? = some k).flatMap (callsOf · log)) (hnodup : as.Nodup)
    (hlast : e.calls ≠ [] → (M j).key? = some k → ∃ before later, as = before ++ j :: later ∧
      ∀ i ∈ later, (M i).key? ≠ some k) :
    callsAmong (fun i => (M i).key? = some k) (log ++ [(j, e)]) =
      (as.filter fun i => (M i).key? = some k).flatMap (callsOf · (log ++ [(j, e)])) := by
  have hothers {is : List Nat} (his : j ∉ is ∨ e.calls = []) :
      is.flatMap (callsOf · (log ++ [(j, e)])) = is.flatMap (callsOf · log) := by
    refine List.flatMap_congr fun i hi => ?_
    rcases his with hj | hnone
    · exact callsOf_append_other (fun hji : j = i => hj (hji ▸ hi)) log e
    · rw [callsOf, callsOf, callsAmong_append, hnone]
      simp
  rw [callsAmong_append, h]
  by_cases hnone : e.calls = []
  · rw [hothers (.inr hnone), hnone]
    simp
  by_cases hk : (M j).key? = some k
  · obtain ⟨before, later, rfl, hlater⟩ := hlast hnone hk
    have hno : (later.filter fun i => (M i).key? = some k) = [] :=
      List.filter_eq_nil_iff.mpr (by simpa using hlater)
    have hfilter : ((before ++ j :: later).filter fun i => (M i).key? = some k) =
        (before.filter fun i => (M i).key? = some k) ++ [j] := by
      rw [List.filter_append, List.filter_cons_of_pos (by simpa using hk), hno]
    have hj : j ∉ before.filter fun i => (M i).key? = some k := fun hj =>
      (List.nodup_append.mp hnodup).2.2 j (List.mem_filter.mp hj).1 j List.mem_cons_self rfl
    rw [hfilter, List.flatMap_append, List.flatMap_append, hothers (.inl hj)]
    simp [hk, callsOf_append_self]
  · have hj : j ∉ as.filter fun i => (M i).key? = some k := fun hj =>
      hk (of_decide_eq_true (List.mem_filter.mp hj).2)
    rw [hothers (.inl hj)]
    simp [hk]

namespace Crew.Sound

/-- When one program has gone on, all others stand where they stood, as long as its effect keeps
away from the sessions that they have locked. -/
theorem stage_set (h : c.Sound E M σ₀ m) {l : SessionLocks Nat} {σ : Sessions} {bs : List Nat}
    {e : Effect} {q : Program α} (hj : j < c.programs.length)
    (hown : Stage E M σ₀ l σ (acquired c.log ++ bs) (callsOf j c.log ++ e.calls) j q)
    (hl : ∀ i ≠ j, ∀ k, l.Holder i k ↔ c.world.locks.Holder i k)
    (hσ : ∀ i ≠ j, ∀ k, c.world.locks.Holder i k → σ k = m.sessions.get? k)
    (hbs : ∀ i ≠ j, i ∉ bs ∧ ∀ k, c.world.locks.Holder i k → ∀ b ∈ bs, (M b).key? ≠ some k)
    {p : Program α} (hi : (c.programs.set j q)[i]? = some p) :
    Stage E M σ₀ l σ (acquired c.log ++ bs) (callsOf i (c.log ++ [(j, e)])) i p := by
  by_cases hij : i = j
  · subst hij
    rw [List.getElem?_set_self hj] at hi
    cases hi
    rwa [callsOf_append_self]
  · rw [List.getElem?_set_ne (Ne.symm hij)] at hi
    rw [callsOf_append_other (Ne.symm hij)]
    exact (h.stages i p hi).frame (hl i hij) (hσ i hij) (hbs i hij).1 (hbs i hij).2

/-- A plain effect of one program. It may change the session that the program has locked. -/
theorem plain (h : c.Sound E M σ₀ m) (ho : o.Steady E) {e : Effect} {next : e.Answer → Program α}
    (hp : c.programs[j]? = some (.perform e next)) (he : E.Plain e) {held : Option SessionKey}
    (hw : e.Within held) (hheld : ∀ k ∈ held, c.world.locks.Holder j k)
    (hlast : ∀ k, e.calls ≠ [] → (M j).key? = some k → ∃ before later,
      acquired c.log = before ++ j :: later ∧ ∀ i ∈ later, (M i).key? ≠ some k)
    (hstage : ∀ b, E.Says m.sessions.get? e b → Stage E M σ₀ c.world.locks
      (e.applied m).sessions.get? (acquired c.log) (callsOf j c.log ++ e.calls) j (next b)) :
    ∃ m', (c.step o j).Sound E M σ₀ m' := by
  obtain ⟨b, w', hanswer, hsays, hw', hlocks, hcalls⟩ := h.meets.answer ho he j
  have hacquired : acquired (c.log ++ [(j, e)]) = acquired c.log := by
    rw [acquired_append]
    cases e <;> first | exact List.append_nil _ | exact he.elim
  have hother {k : SessionKey} (hk : held ≠ some k) :
      (e.applied m).sessions.get? k = m.sessions.get? k := sessions_applied_other hw hk
  have hj : j < c.programs.length := lt_of_getElem? hp
  rw [step_eq hp hanswer]
  refine ⟨e.applied m, hw', by rw [hlocks]; exact h.coherent, by rw [hacquired]; exact h.nodup,
    fun i hi => ?_, fun d hd => ?_, fun i p hi => ?_, fun k hk => ?_, fun k => ?_⟩
  · rw [hacquired] at hi
    rw [List.length_set]
    exact h.bound i hi
  · rw [hlocks] at hd
    refine backed_set h.claims hp (fun k hk => ?_) _ d hd
    rw [hk] at he
    exact he
  · have hown := hstage b hsays
    rw [← List.append_nil (acquired c.log)] at hown
    rw [hacquired, hlocks, ← List.append_nil (acquired c.log)]
    refine h.stage_set hj hown (fun _ _ _ => Iff.rfl) (fun i hij k hk => hother fun hheld' => hij ?_)
      (fun _ _ => ⟨List.not_mem_nil, fun _ _ _ hn => absurd hn List.not_mem_nil⟩) hi
    exact h.coherent.holder_unique hk (hheld k hheld')
  · rw [hlocks] at hk
    rw [hacquired, hother fun hheld' => hk j (hheld k hheld')]
    exact h.resting k hk
  · rw [hacquired]
    exact calls_append (h.calls k) h.nodup (hlast k)

/-- A program that asks for a lock has neither a lock nor a claim that it is aware of. -/
theorem stage_acquire (h : c.Sound E M σ₀ m) {k : SessionKey} {next : Unit → Program α}
    (hp : c.programs[j]? = some (.perform (.acquire k) next)) :
    ∃ turn, M j = .bound k turn ∧ j ∉ acquired c.log ∧ (∀ k, ¬ c.world.locks.Holder j k) ∧
      callsOf j c.log = [] ∧ ∀ x, (∀ z ∈ x, z.key = k) →
        Follows E (some k) (next ()) x (turn x).calls (turn x).value (turn x).session := by
  cases h.stages j _ hp with
  | ahead hM ha hl hmade hp =>
    cases hp with
    | step he _ _ => exact he.elim
    | acquire hturn => exact ⟨_, hM, ha, hl, hmade, hturn⟩
  | inside _ _ _ _ _ hp => exact (not_follows_acquire hp).elim
  | behind _ _ _ _ hp => exact (not_follows_acquire hp).elim
  | free _ _ _ hp => exact (not_follows_acquire hp).elim

theorem enter (h : c.Sound E M σ₀ m) {k : SessionKey} {next : Unit → Program α}
    (hp : c.programs[j]? = some (.perform (.acquire k) next))
    (hno : ∀ d ∈ c.world.locks.claims, d.ticket ≠ j) :
    Crew.Sound E M σ₀ { c with world := { c.world with locks := c.world.locks.enter j k } } m := by
  have hholder (i : Nat) (k' : SessionKey) :
      (c.world.locks.enter j k).Holder i k' ↔ c.world.locks.Holder i k' :=
    SessionLocks.holder_enter h.coherent
  refine ⟨h.meets.withLocks _,
    SessionLocks.coherent_enter h.coherent hno, h.nodup, h.bound,
    backed_enter h.coherent h.claims hp, fun i p hi => ?_,
    fun k' hk => h.resting k' fun i hi => hk i ((hholder i k').mpr hi), h.calls⟩
  rw [← List.append_nil (acquired c.log)]
  exact (h.stages i p hi).frame (hholder i) (fun _ _ => rfl) List.not_mem_nil
    fun _ _ _ hn => absurd hn List.not_mem_nil

/-- A program that has been given a lock takes it. It finds the session as the last holder has left
it. -/
theorem acquire (h : c.Sound E M σ₀ m) {k : SessionKey} {next : Unit → Program α}
    (hp : c.programs[j]? = some (.perform (.acquire k) next)) {d : Claim Nat}
    (hd : d ∈ c.world.locks.claims) (ht : d.ticket = j) (hg : d.phase = .granted) :
    Crew.Sound E M σ₀ ⟨c.programs.set j (next ()),
      { c.world with locks := c.world.locks.resume j }, c.log ++ [(j, .acquire k)]⟩ m := by
  subst ht
  obtain ⟨turn, hM, hnot, hno, hmade, hturn⟩ := h.stage_acquire hp
  -- the claim was granted for the session that the program asks for
  obtain rfl : d.key = k := key_of_granted h.claims hd hp hg
  have hholder (i : Nat) (k' : SessionKey) : (c.world.locks.resume d.ticket).Holder i k' ↔
      c.world.locks.Holder i k' ∨ i = d.ticket ∧ k' = d.key :=
    SessionLocks.holder_resume h.coherent hd hg
  have hfree (i : Nat) : ¬ c.world.locks.Holder i d.key :=
    h.coherent.not_holder_of_granted hd hg
  have hacquired : acquired (c.log ++ [(d.ticket, .acquire d.key)]) = acquired c.log ++ [d.ticket] :=
    acquired_append _ _ _
  have hcalls (i : Nat) : callsOf i (c.log ++ [(d.ticket, .acquire d.key)]) = callsOf i c.log := by
    rw [callsOf, callsOf, callsAmong_append]
    simp [Effect.calls]
  have hlt : d.ticket < c.programs.length := (h.claims d hd).lt
  have hkey : (M d.ticket).key? = some d.key := by rw [hM]; rfl
  refine ⟨h.meets.withLocks _,
    SessionLocks.coherent_resume h.coherent _, ?_, fun i hi => ?_,
    backed_resume h.coherent h.claims hd hg _, fun i p hi => ?_, fun k' hk => ?_, fun k' => ?_⟩
  · rw [hacquired, List.nodup_append]
    refine ⟨h.nodup, List.nodup_singleton _, fun a ha b hb hab => hnot ?_⟩
    rw [← List.mem_singleton.mp hb, ← hab]
    exact ha
  · rw [hacquired, List.mem_append, List.mem_singleton] at hi
    rw [List.length_set]
    rcases hi with hi | rfl
    · exact h.bound i hi
    · exact ⟨hlt, by rw [hkey]; exact Option.some_ne_none _⟩
  · rw [hacquired]
    have hown : Stage E M σ₀ (c.world.locks.resume d.ticket) m.sessions.get?
        (acquired c.log ++ [d.ticket]) (callsOf d.ticket c.log ++ []) d.ticket (next ()) := by
      have hfollows := hturn (m.sessions.get? d.key) fun z hz =>
        h.meets.store.keyed.sessions d.key z hz
      refine .inside hM rfl (fun j hj => nomatch hj)
        (fun k' => (hholder _ k').trans ⟨?_, fun hk => .inr ⟨rfl, hk⟩⟩) (by rw [hmade]; rfl) ?_
      · rintro (hk | ⟨-, hk⟩)
        · exact absurd hk (hno k')
        · exact hk
      · rwa [h.resting d.key hfree] at hfollows ⊢
    refine h.stage_set hlt hown (fun i hij k' => (hholder i k').trans ⟨?_, .inl⟩)
      (fun _ _ _ _ => rfl) (fun i hij => ⟨by rwa [List.mem_singleton], fun k' hk' j hj hkj => ?_⟩) hi
    · rintro (hk | ⟨hk, -⟩)
      · exact hk
      · exact absurd hk hij
    · rw [List.mem_singleton.mp hj, hkey] at hkj
      rw [← Option.some.inj hkj] at hk'
      exact hfree i hk'
  · have hne : k' ≠ d.key := fun hkd => hk d.ticket ((hholder _ _).mpr (.inr ⟨rfl, hkd⟩))
    rw [hacquired, past_append, past_others (fun i hi hkey' => hne ?_)]
    · exact h.resting k' fun i hi => hk i ((hholder i k').mpr (.inl hi))
    · rw [List.mem_singleton.mp hi, hkey] at hkey'
      exact (Option.some.inj hkey').symm
  · rw [callsAmong_append, h.calls k', hacquired, List.filter_append, List.flatMap_append]
    simp only [hcalls]
    congr 1
    by_cases hk : (M d.ticket).key? = some k'
    · rw [List.filter_cons_of_pos (by simpa using hk)]
      simp [Effect.calls, hmade]
    · rw [List.filter_cons_of_neg (by simpa using hk)]
      simp [Effect.calls]

/-- A program lets go of its lock, and leaves the session as its turn says. -/
theorem release (h : c.Sound E M σ₀ m) {k : SessionKey} {next : Unit → Program α}
    (hp : c.programs[j]? = some (.perform (.release k) next)) :
    Crew.Sound E M σ₀ ⟨c.programs.set j (next ()),
      { c.world with locks := (c.world.locks.release j).prune j }, c.log ++ [(j, .release k)]⟩ m := by
  obtain ⟨turn, before, later, hM, ha, hlater, hl, hmade, hsession, hnext⟩ :
      ∃ turn before later, M j = .bound k turn ∧ acquired c.log = before ++ j :: later ∧
        (∀ i ∈ later, (M i).key? ≠ some k) ∧ (∀ k', c.world.locks.Holder j k' ↔ k' = k) ∧
        callsOf j c.log = (turn (past M σ₀ before k)).calls ∧
        m.sessions.get? k = (turn (past M σ₀ before k)).session ∧
        Follows E none (next ()) none [] (turn (past M σ₀ before k)).value none := by
    cases h.stages j _ hp with
    -- only a program that has a lock can let it go
    | ahead _ _ _ _ hp => cases hp with | step he _ _ => exact he.elim
    | behind _ _ _ _ hp => exact nomatch (follows_release hp).1
    | free _ _ _ hp => exact nomatch (follows_release hp).1
    | inside hM ha hlater hl hmade hp =>
      obtain ⟨hk, rfl, hsession, hnext⟩ := follows_release hp
      cases hk
      exact ⟨_, _, _, hM, ha, hlater, hl, by rw [← hmade, List.append_nil], hsession.symm, hnext⟩
  obtain ⟨d, hd, rfl, rfl, hh⟩ := (hl k).mpr rfl
  have hholder (i : Nat) (k' : SessionKey) :
      ((c.world.locks.release d.ticket).prune d.ticket).Holder i k' ↔
        c.world.locks.Holder i k' ∧ i ≠ d.ticket := SessionLocks.holder_leave h.coherent hd hh
  have hacquired : acquired (c.log ++ [(d.ticket, .release d.key)]) = acquired c.log :=
    (acquired_append _ _ _).trans (List.append_nil _)
  have hlt : d.ticket < c.programs.length := (h.claims d hd).lt
  refine ⟨h.meets.withLocks _,
    SessionLocks.coherent_prune (SessionLocks.coherent_release h.coherent _) _,
    by rw [hacquired]; exact h.nodup, fun i hi => ?_, backed_leave h.coherent h.claims hd hh _,
    fun i p hi => ?_, fun k' hk => ?_, fun k' => ?_⟩
  · rw [hacquired] at hi
    rw [List.length_set]
    exact h.bound i hi
  · have hown : Stage E M σ₀ ((c.world.locks.release d.ticket).prune d.ticket) m.sessions.get?
        (acquired c.log ++ []) (callsOf d.ticket c.log ++ []) d.ticket (next ()) := by
      rw [List.append_nil, List.append_nil]
      exact .behind hM ha (fun k' hk' => ((hholder _ k').mp hk').2 rfl) hmade hnext
    rw [hacquired, ← List.append_nil (acquired c.log)]
    exact h.stage_set hlt hown (fun i hij k' => (hholder i k').trans (and_iff_left hij))
      (fun _ _ _ _ => rfl)
      (fun _ _ => ⟨List.not_mem_nil, fun _ _ _ hn => absurd hn List.not_mem_nil⟩) hi
  · rw [hacquired]
    by_cases hkd : k' = d.key
    · rw [hkd, ha, past_last hM hlater]
      exact hsession
    · refine h.resting k' fun i hi => hk i ((hholder i k').mpr ⟨hi, ?_⟩)
      rintro rfl
      exact hkd ((hl k').mp hi)
  · rw [hacquired]
    exact calls_append (h.calls k') h.nodup fun hne => absurd rfl hne

theorem start {ps : List (Program α)} {w : World ε}
    (hof : ∀ i p, ps[i]? = some p → (M i).Of E p) (hw : w.Meets E m) (hl : w.locks.Coherent)
    (hfree : w.locks.Unused) : Crew.Sound E M m.sessions.get? ⟨ps, w, []⟩ m := by
  have hno (i : Nat) (k : SessionKey) : ¬ w.locks.Holder i k := by
    rintro ⟨d, hd, -⟩
    rw [show w.locks.claims = [] from hfree] at hd
    cases hd
  refine ⟨hw, hl, .nil, fun i hi => (nomatch hi), fun d hd => ?_, fun i p hi => ?_, fun _ _ => rfl,
    fun _ => rfl⟩
  · rw [show w.locks.claims = [] from hfree] at hd
    cases hd
  · have h := hof i p hi
    cases hM : M i with
    | free calls a =>
      rw [hM] at h
      exact .free hM (hno i) rfl h
    | bound k turn =>
      rw [hM] at h
      exact .ahead hM List.not_mem_nil (hno i) rfl h

/-! ## Steps and runs -/

theorem next_effect (h : c.Sound E M σ₀ m) {e : Effect} {next : e.Answer → Program α}
    (hp : c.programs[j]? = some (.perform e next)) :
    E.Plain e ∨ (∃ k, e = .acquire k) ∨ ∃ k, e = .release k := by
  have hfollows {held : Option SessionKey} {x y : Option Session} {calls : List Call} {a : α}
      (hp : Follows E held (.perform e next) x calls a y) : E.Plain e ∨ ∃ k, e = .release k := by
    cases hp with
    | step he _ _ => exact .inl he
    | release _ => exact .inr ⟨_, rfl⟩
  cases h.stages j _ hp with
  | ahead _ _ _ _ hp =>
    cases hp with
    | step he _ _ => exact .inl he
    | acquire _ => exact .inr (.inl ⟨_, rfl⟩)
  | inside _ _ _ _ _ hp => exact (hfollows hp).imp id .inr
  | behind _ _ _ _ hp => exact (hfollows hp).imp id .inr
  | free _ _ _ hp => exact (hfollows hp).imp id .inr

theorem step_plain (h : c.Sound E M σ₀ m) (ho : o.Steady E) {e : Effect}
    {next : e.Answer → Program α} (hp : c.programs[j]? = some (.perform e next)) (he : E.Plain e) :
    ∃ m', (c.step o j).Sound E M σ₀ m' := by
  cases h.stages j _ hp with
  | @ahead k turn hM ha hl hmade hawaits =>
    cases hawaits with
    | acquire _ => exact he.elim
    | step _ hr hnext =>
      have hnone := Effect.calls_of_reads hr
      refine h.plain ho hp he (Effect.within_of_reads hr) Effect.forall_mem_none
        (fun _ hne _ => absurd hnone hne) fun b hb => ?_
      exact .ahead hM ha hl (by rw [hmade, hnone]; rfl) (hnext _ b hb)
  | @inside k turn before later calls hM ha hlater hl hmade hfollows =>
    obtain ⟨hw, rest, rfl, hnext⟩ := follows_plain he hfollows
    refine h.plain ho hp he hw (fun k' hk' => (hl k').mpr (Option.some.inj hk').symm)
      (fun k' _ hk' => ⟨before, later, ha, ?_⟩) fun b hb => ?_
    · rw [hM] at hk'
      rw [← hk']
      exact hlater
    · refine .inside hM ha hlater hl (by rw [List.append_assoc]; exact hmade) ?_
      rw [sessions_applied_own hw]
      exact hnext _ b (fun k' hk' => by rw [Option.some.inj hk']) hb
  | @behind k turn before later hM ha hl hmade hfollows =>
    obtain ⟨hw, rest, hrest, hnext⟩ := follows_plain he hfollows
    obtain ⟨hnone, rfl⟩ := List.append_eq_nil_iff.mp hrest.symm
    refine h.plain ho hp he hw Effect.forall_mem_none (fun _ hne _ => absurd hnone hne)
      fun b hb => ?_
    have hfollows := hnext m.sessions.get? b Effect.forall_mem_none hb
    rw [Effect.left_none hw] at hfollows
    exact .behind hM ha hl (by rw [hmade, hnone, List.append_nil]) hfollows
  | @free calls rest a hM hl hmade hfollows =>
    obtain ⟨hw, rest, rfl, hnext⟩ := follows_plain he hfollows
    refine h.plain ho hp he hw Effect.forall_mem_none
      (fun k' _ hk' => by rw [hM] at hk'; cases hk') fun b hb => ?_
    have hfollows := hnext m.sessions.get? b Effect.forall_mem_none hb
    rw [Effect.left_none hw] at hfollows
    exact .free hM hl (by rw [List.append_assoc]; exact hmade) hfollows

theorem queue (h : c.Sound E M σ₀ m) {k : SessionKey} {next : Unit → Program α}
    (hp : c.programs[j]? = some (.perform (.acquire k) next)) :
    (c.asking j k).Sound E M σ₀ m ∧ ∃ d ∈ (c.asking j k).world.locks.claims,
      d.ticket = j ∧ (d.phase = .waiting ∨ d.phase = .granted) := by
  obtain ⟨-, -, -, hno, -⟩ := h.stage_acquire hp
  refine ⟨?_, exists_claim h.coherent h.claims hno⟩
  cases hphase : c.world.locks.phaseOf j with
  | some phase =>
    rw [asking_of_some hphase]
    exact h
  | none =>
    rw [asking_of_none hphase]
    exact h.enter hp (SessionLocks.phaseOf_eq_none_iff.mp hphase)

theorem step (h : c.Sound E M σ₀ m) (ho : o.Steady E) (j : Nat) :
    ∃ m', (c.step o j).Sound E M σ₀ m' := by
  cases hp : c.programs[j]? with
  | none => exact ⟨m, by rw [Crew.step, hp]; exact h⟩
  | some p =>
    cases p with
    | done a => exact ⟨m, by rw [Crew.step, hp]; exact h⟩
    | perform e next =>
      rcases h.next_effect hp with he | ⟨k, rfl⟩ | ⟨k, rfl⟩
      · exact h.step_plain ho hp he
      · -- queued or not before, the program has a claim now, and it waits or takes its lock
        obtain ⟨hq, d, hd, rfl, hphase⟩ := h.queue hp
        have hof := SessionLocks.phaseOf_of_mem hq.coherent.toTidy hd
        refine ⟨m, ?_⟩
        rcases hphase with hw | hg
        · rw [step_waiting hp (hof.trans (congrArg some hw))]
          exact hq
        · rw [step_eq hp (answer_granted (hof.trans (congrArg some hg)))]
          exact hq.acquire hp hd rfl hg
      · refine ⟨m, ?_⟩
        rw [Crew.step, hp]
        exact h.release hp

theorem run (h : c.Sound E M σ₀ m) (ho : o.Steady E) (schedule : List Nat) :
    ∃ m', (c.run o schedule).Sound E M σ₀ m' := by
  induction schedule generalizing c m with
  | nil => exact ⟨m, h⟩
  | cons j schedule ih =>
    obtain ⟨m₁, h₁⟩ := h.step ho j
    exact ih h₁

end Crew.Sound

end

end CellReplay
