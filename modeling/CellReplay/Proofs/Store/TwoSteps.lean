import CellReplay.Proofs.Store.Rows

/-!
# Proofs.Store.TwoSteps

A session is read in two statements, one for its row and one for its fragments, and others may save
sessions between the two.

* `Saves`       — what others do to a database: sessions that are saved one after the other, and saves
  that fail.
* `Session.latest` — a session as it was saved last.
* `Saves.kept`  — a session that there is stays, and is found as it was saved last.
* `Untorn`      — what a read between whose steps sessions are saved has to answer.
* `reads_untorn` — whatever is saved between the two steps, that is what reads answer.
-/

namespace CellReplay

/-- A session in the version that was saved last. -/
def Session.latest (saved : List Session) (x : Session) : Session :=
  ((saved.filter (·.key = x.key)).getLast?).getD x

theorem Session.latest_cons (s : Session) (saved : List Session) (x : Session) :
    x.latest (s :: saved) = (if s.key = x.key then s else x).latest saved := by
  unfold latest
  by_cases h : s.key = x.key
  · rw [if_pos h, List.filter_cons_of_pos (by simpa using h), List.getLast?_cons, h]
    rfl
  · rw [if_neg h, List.filter_cons_of_neg (by simpa using h)]

namespace Database

/-- What becomes of a database while others save sessions. Each save is a transaction of its own; those
that succeed are listed. -/
inductive Saves : Database → List Session → Database → Prop
  | none {d : Database} : Saves d [] d
  | saved {d d₁ d' : Database} {s : Session} {saved : List Session} :
      d.saveSession s = (.ok (), d₁) → Saves d₁ saved d' → Saves d (s :: saved) d'
  | failed {d d₁ d' : Database} {s : Session} {saved : List Session} {e : DatabaseError} :
      d.saveSession s = (.error e, d₁) → Saves d₁ saved d' → Saves d saved d'

variable {d d' : Database} {saved : List Session}

/-- Where a table is missing nothing is saved, and nothing changes. -/
theorem Saves.eq_of_missing (h : Saves d saved d') (hmissing : ¬ d.HasSessionTables) :
    d' = d ∧ saved = [] := by
  induction h with
  | none => exact ⟨rfl, rfl⟩
  | saved hs _ _ => exact absurd (saveSession_ok hs).1 hmissing
  | failed hs _ ih =>
    obtain rfl := saveSession_error hs
    exact ih hmissing

/-- A session that there is stays, and is found as it was saved last. -/
theorem Saves.kept (h : Saves d saved d') {x : Session} (hx : d.findSession x.key = .ok (some x)) :
    d'.findSession x.key = .ok (some (x.latest saved)) := by
  induction h generalizing x with
  | none => exact hx
  | @saved d d₁ d' s saved hs _ ih =>
    obtain ⟨htables, rfl⟩ := saveSession_ok hs
    have hfound := findSession_stored htables s x.key
    rw [Session.latest_cons]
    by_cases hkey : s.key = x.key
    · rw [if_pos hkey.symm, ← hkey] at hfound
      rw [if_pos hkey, ← hkey]
      exact ih hfound
    · rw [if_neg (Ne.symm hkey), hx] at hfound
      rw [if_neg hkey]
      exact ih hfound
  | failed hs _ ih =>
    obtain rfl := saveSession_error hs
    exact ih hx

/-- Where sessions and fragments can be read, they still can. -/
theorem Saves.history_isSome (h : Saves d saved d') (hrows : d.history.isSome) :
    d'.history.isSome := by
  induction h with
  | none => exact hrows
  | saved hs _ ih =>
    obtain ⟨-, rfl⟩ := saveSession_ok hs
    exact ih (by simpa [stored] using hrows)
  | failed hs _ ih =>
    obtain rfl := saveSession_error hs
    exact ih hrows

/-- The answers of reads that begin on `d` and end on `d'`, where sessions have been saved in between. -/
structure Untorn (d d' : Database) (saved : List Session) : Prop where
  /-- A session is found if it was there at the first step, in the version that was saved last. -/
  session : ∀ k, findSessionIn d d' k = (d.findSession k).map (Option.map (·.latest saved))
  /-- That is the whole of it as a read at the second step finds it. -/
  sessionAsStored : ∀ k x, findSessionIn d d' k = .ok (some x) → d'.findSession k = .ok (some x)
  /-- Nothing is found only of what was not there at the first step. -/
  sessionMissing : ∀ k, findSessionIn d d' k = .ok none ↔ d.hasSession k = .ok false
  /-- The sessions of a context are those that were there at the first step. -/
  sessions : ∀ context,
    findSessionsIn d d' context = (d.findSessions context).map (List.map (·.latest saved))
  /-- They ascend, each once, and each is what a read at the second step finds. -/
  sessionsAsStored : ∀ context xs, findSessionsIn d d' context = .ok xs →
    xs.Pairwise (fun x y => x.id.val < y.id.val) ∧
      ∀ x, x ∈ xs ↔ x.context = context ∧ d.hasSession x.key = .ok true ∧
        d'.findSession x.key = .ok (some x)
  /-- No read fails where the tables are there. -/
  answers : d.sessions.isSome → d.history.isSome →
    (∀ k, ∃ x?, findSessionIn d d' k = .ok x?) ∧ ∀ context, ∃ xs, findSessionsIn d d' context = .ok xs

theorem findSession_found {rows : List FragmentRow} {k : SessionKey} {x : Session}
    (hr : d.history = some rows) (h : d.findSession k = .ok (some x)) :
    x = ⟨k.context, k.id, fragmentsIn rows k⟩ := by
  cases hs : d.sessions with
  | none =>
    rw [findSession, findSessionIn, hasSession, hs] at h
    cases h
  | some keys =>
    rw [findSession_eq hs hr] at h
    split at h
    · cases h
      rfl
    · cases h

/-- The last version of a session is what its fragments at the second step say. -/
theorem Saves.latest_eq (h : Saves d saved d') {rows : List FragmentRow} (hr : d'.history = some rows)
    {x : Session} (hx : d.findSession x.key = .ok (some x)) :
    x.latest saved = ⟨x.context, x.id, fragmentsIn rows x.key⟩ := findSession_found hr (h.kept hx)

theorem hasSession_eq {keys : List SessionKey} (hs : d.sessions = some keys) (k : SessionKey) :
    d.hasSession k = .ok (decide (k ∈ keys)) := by
  rw [hasSession, hs]
  rfl

theorem findSessionIn_eq_none_iff (d d' : Database) (k : SessionKey) :
    findSessionIn d d' k = .ok none ↔ d.hasSession k = .ok false := by
  simp only [findSessionIn, bind, Except.bind]
  rcases d.hasSession k with e | found
  · simp
  · cases found
    · simp [pure, Except.pure]
    · cases d'.fragmentsOf k <;> simp [pure, Except.pure]

theorem findSessionsIn_ok {context : String} {xs : List Session}
    (h : findSessionsIn d d' context = .ok xs) : d.sessions.isSome ∧ d'.history.isSome := by
  cases hs : d.sessions with
  | none =>
    rw [findSessionsIn, sessionIds, hs] at h
    cases h
  | some keys =>
    cases hr : d'.history with
    | none =>
      rw [findSessionsIn, sessionIds, fragmentsOfContext, hs, hr] at h
      cases h
    | some rows => exact ⟨rfl, rfl⟩

/-- Where a table is missing, a read is answered as it would have been at once. -/
theorem untorn_of_missing (hmissing : ¬ (d.sessions.isSome ∧ d.history.isSome)) : Untorn d d [] where
  session k := by
    rw [findSession]
    rcases findSessionIn d d k with e | _ | x <;> rfl
  sessionAsStored _ _ h := h
  sessionMissing := findSessionIn_eq_none_iff d d
  sessions context := by
    rw [findSessions]
    rcases findSessionsIn d d context with e | xs
    · rfl
    · exact congrArg Except.ok (List.map_id xs).symm
  sessionsAsStored _ _ h := absurd (findSessionsIn_ok h) hmissing
  answers hs hr := absurd ⟨hs, hr⟩ hmissing

section Tables

variable {keys : List SessionKey} {rows rows' : List FragmentRow} (hs : d.sessions = some keys)
  (hr : d.history = some rows) (hr' : d'.history = some rows') (h : Saves d saved d')
include hs hr hr' h

/-- A session that is there at the first step is read in the version that was saved last. -/
theorem Saves.latest_at {k : SessionKey} (hk : k ∈ keys) :
    Session.latest saved ⟨k.context, k.id, fragmentsIn rows k⟩ =
      ⟨k.context, k.id, fragmentsIn rows' k⟩ := by
  refine h.latest_eq hr' (x := ⟨k.context, k.id, fragmentsIn rows k⟩) ?_
  rw [Session.key, findSession_eq hs hr, if_pos hk]

/-- It is there at the second step too, in that version. -/
theorem Saves.findSession_at {k : SessionKey} (hk : k ∈ keys) :
    d'.findSession k = .ok (some ⟨k.context, k.id, fragmentsIn rows' k⟩) := by
  rw [← h.latest_at hs hr hr' hk]
  refine h.kept (x := ⟨k.context, k.id, fragmentsIn rows k⟩) ?_
  rw [Session.key, findSession_eq hs hr, if_pos hk]

theorem untorn_of_tables (hkeys : keys.Nodup) : Untorn d d' saved where
  session k := by
    rw [findSessionIn_eq hs hr', findSession_eq hs hr]
    by_cases hk : k ∈ keys
    · rw [if_pos hk, if_pos hk, ← h.latest_at hs hr hr' hk]
      rfl
    · rw [if_neg hk, if_neg hk]
      rfl
  sessionAsStored k x hx := by
    rw [findSessionIn_eq hs hr'] at hx
    split at hx
    · next hk =>
      rw [h.findSession_at hs hr hr' hk]
      exact hx
    · cases hx
  sessionMissing := findSessionIn_eq_none_iff d d'
  sessions context := by
    rw [findSessionsIn_eq hs hr', findSessions_eq hs hr]
    refine congrArg Except.ok ?_
    rw [List.map_map]
    refine List.map_congr_left fun i hi => ?_
    obtain ⟨k, hfiltered, rfl⟩ := List.mem_map.mp (Text.mem_sortBy.mp hi)
    obtain ⟨hk, hc⟩ := List.mem_filter.mp hfiltered
    obtain rfl : k.context = context := of_decide_eq_true hc
    exact (h.latest_at hs hr hr' hk).symm
  sessionsAsStored context xs hxs := by
    refine ⟨?_, fun x => ?_⟩
    · rw [findSessionsIn_eq hs hr'] at hxs
      cases hxs
      exact List.pairwise_map.mpr (sessionIds_ascending hkeys context)
    · obtain ⟨ys, hys, hmem⟩ := mem_findSessionsIn hs hr' context
      obtain rfl : xs = ys := Except.ok.inj (hxs.symm.trans hys)
      rw [hmem, hasSession_eq hs, Except.ok.injEq, decide_eq_true_eq]
      refine and_congr_right fun _ => and_congr_right fun hk => ?_
      rw [h.findSession_at hs hr hr' hk, Except.ok.injEq, Option.some.injEq]
      cases x
      simp [Session.key, eq_comm]
  answers _ _ := ⟨fun k => ⟨_, findSessionIn_eq hs hr' k⟩, fun c => ⟨_, findSessionsIn_eq hs hr' c⟩⟩

end Tables

/-- Whatever sessions are saved between the two steps of a read, the read answers with the sessions that
were there at the first step, all of them and no others, each in the version that was saved last. The
table of sessions names each of them once: it is keyed by what names them. -/
theorem reads_untorn (hkeys : (d.sessions.getD []).Nodup) (h : Saves d saved d') :
    Untorn d d' saved := by
  by_cases htables : d.sessions.isSome ∧ d.history.isSome
  · obtain ⟨keys, hs⟩ := Option.isSome_iff_exists.mp htables.1
    obtain ⟨rows, hr⟩ := Option.isSome_iff_exists.mp htables.2
    obtain ⟨rows', hr'⟩ := Option.isSome_iff_exists.mp (h.history_isSome htables.2)
    rw [hs] at hkeys
    exact untorn_of_tables hs hr hr' h hkeys
  · obtain ⟨rfl, rfl⟩ := h.eq_of_missing fun ht => htables ⟨ht.sessions, ht.history⟩
    exact untorn_of_missing htables

def watchedId : SessionId := ⟨4, by decide, by decide⟩

/-- A database with a session of two fragments. -/
def watched : Database :=
  ⟨some [1], some [⟨"python", "/usr/bin/python3"⟩], some [⟨"python", watchedId⟩],
    some [⟨⟨"python", watchedId⟩, 0, "x = 1"⟩, ⟨⟨"python", watchedId⟩, 1, "y = 2"⟩], false⟩

/-- Between the two steps the session shrinks, a new one appears, and a save fails. -/
theorem reads_untorn_shrinking :
    let saved : List Session :=
      [⟨"python", ⟨3, by decide, by decide⟩, ["n = 0"]⟩, ⟨"python", watchedId, ["z = 3"]⟩]
    ∃ d', (watched.sessions.getD []).Nodup ∧ Saves watched saved d' ∧ Untorn watched d' saved ∧
      findSessionsIn watched d' "python" = .ok [⟨"python", watchedId, ["z = 3"]⟩] := by
  intro saved
  have hkeys : (watched.sessions.getD []).Nodup := by decide
  have hsaves : Saves watched saved _ :=
    .saved rfl (.failed (s := ⟨"shell", watchedId, ["a=1"]⟩) rfl (.saved rfl .none))
  exact ⟨_, hkeys, hsaves, reads_untorn hkeys hsaves, rfl⟩

end Database

end CellReplay
