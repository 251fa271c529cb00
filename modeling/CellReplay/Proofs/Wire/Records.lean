import CellReplay.Proofs.Client.Exchange
import CellReplay.Proofs.Json.Members

/-!
# Proofs.Wire.Records

The types that are written as objects, and what their readers make of a text.

* `Record`           — a type with the names of its parts, a writer and a reader.
* `Record.Lawful`    — what is written is read back; the order of members, members of other names and
  space between tokens do not matter; every part is there once, but for those that may be left out.
* `Record.Assembles` — the reader of values takes the parts by name and puts them together.
* `lawful_records`   — the types of this program are lawful, and its closed lists are read back.
-/

namespace CellReplay

open Json

/-- A type whose values have named parts. -/
structure Record (α : Type) where
  names : List String
  optional : List String
  toJson : α → Json
  ofJson? : Json → Option α

namespace Record

variable {α : Type}

def write (r : Record α) (v : α) : String := (r.toJson v).print

def read (r : Record α) (text : String) : Option α := (parse text).bind r.ofJson?

/-- What is written is read back, and the members of a text are read by their names alone. -/
structure Lawful (r : Record α) : Prop where
  read_write : ∀ v, r.read (r.write v) = some v
  /-- Each part is written as one member. -/
  written : ∀ v, ∃ ms : List Member, r.write v = objectText ms ∧ ms.map Member.name = r.names
  /-- The order of the members does not matter. -/
  permuted : ∀ ms ms' : List Member, ms.Perm ms' → r.read (objectText ms) = r.read (objectText ms')
  /-- Members of other names do not matter, whatever their values. -/
  extended : ∀ (m : Member) (ms : List Member), m.name ∉ r.names →
    r.read (objectText (m :: ms)) = r.read (objectText ms)
  /-- Space between tokens does not matter. -/
  spaced : ∀ text text' : String, tokens text.toList = tokens text'.toList →
    r.read text = r.read text'
  /-- A part that may be left out counts as null where it is. -/
  omitted : ∀ (m : Member) (ms : List Member), m.name ∈ r.optional → m.value = .null →
    (∀ x ∈ ms, x.name ≠ m.name) → r.read (objectText ms) = r.read (objectText (m :: ms))
  /-- Any other part has to be there. -/
  missing : ∀ n ∈ r.names, n ∉ r.optional → ∀ ms : List Member, (∀ x ∈ ms, x.name ≠ n) →
    r.read (objectText ms) = none
  /-- No part is there twice. -/
  repeated : ∀ n ∈ r.names, ∀ ms : List Member, 2 ≤ (ms.map Member.name).count n →
    r.read (objectText ms) = none

end Record

namespace Json

/-! ## Members by name -/

/-- The values of the members with a name. -/
def valuesOf (n : String) (ms : List Member) : List Json :=
  (ms.filter (·.name = n)).map Member.value

section

variable {n : String} {m : Member} {ms ms' : List Member} {names : List String} {least : Nat}

theorem valuesOf_cons_self (h : m.name = n) : valuesOf n (m :: ms) = m.value :: valuesOf n ms := by
  rw [valuesOf, List.filter_cons_of_pos (by simpa using h)]
  rfl

theorem valuesOf_cons_of_ne (h : m.name ≠ n) : valuesOf n (m :: ms) = valuesOf n ms := by
  rw [valuesOf, List.filter_cons_of_neg (by simpa using h)]
  rfl

theorem valuesOf_eq_nil (h : ∀ x ∈ ms, x.name ≠ n) : valuesOf n ms = [] := by
  rw [valuesOf, List.filter_eq_nil_iff.mpr (by simpa using h)]
  rfl

theorem valuesOf_perm (h : ms.Perm ms') : (valuesOf n ms).Perm (valuesOf n ms') :=
  (h.filter _).map _

theorem length_valuesOf : (valuesOf n ms).length = (ms.map Member.name).count n := by
  rw [valuesOf, List.length_map, List.count, List.countP_map, List.countP_eq_length_filter]
  rfl

theorem fields?_objectOf (names : List String) (least : Nat) (ms : List Member) :
    (objectOf ms).fields? names least =
      if ∀ n ∈ names, (valuesOf n ms).length ≤ 1 then
        some (names.map fun n => (valuesOf n ms).head?)
      else none := by
  have hpart (n : String) :
      ((ms.map fun m => (some m.name, m.value)).find? (·.1 = some n)).map Prod.snd =
        (valuesOf n ms).head? := by
    rw [valuesOf, List.head?_map, List.head?_filter, List.find?_map, Option.map_map]
    simp [Function.comp_def]
  have hcount (n : String) :
      ((ms.map fun m => (some m.name, m.value)).filter (·.1 = some n)).length =
        (valuesOf n ms).length := by
    rw [valuesOf, List.length_map, List.filter_map, List.length_map]
    simp [Function.comp_def]
  simp only [objectOf, fields?, hpart, hcount]
  simp [List.all_eq_true]

theorem eq_of_perm_of_length_le_one {js js' : List Json} (h : js.Perm js') (hl : js.length ≤ 1) :
    js = js' := by
  cases js with
  | nil => exact (List.nil_perm.mp h).symm
  | cons j js =>
    obtain rfl : js = [] := List.length_eq_zero_iff.mp (by simpa using hl)
    exact List.singleton_perm.mp h

/-- The members of declared names alone tell the parts, in any order. -/
theorem fields?_congr (h : ∀ n ∈ names, (valuesOf n ms).Perm (valuesOf n ms')) :
    (objectOf ms).fields? names least = (objectOf ms').fields? names least := by
  have hlength : (∀ n ∈ names, (valuesOf n ms).length ≤ 1) ↔
      ∀ n ∈ names, (valuesOf n ms').length ≤ 1 :=
    forall₂_congr fun n hn => by rw [(h n hn).length_eq]
  rw [fields?_objectOf, fields?_objectOf]
  by_cases honce : ∀ n ∈ names, (valuesOf n ms).length ≤ 1
  · rw [if_pos honce, if_pos (hlength.mp honce)]
    refine congrArg some (List.map_congr_left fun n hn => ?_)
    rw [eq_of_perm_of_length_le_one (h n hn) (honce n hn)]
  · rw [if_neg honce, if_neg (mt hlength.mpr honce)]

end

end Json

/-! ## Parts put together -/

/-- The parts by their names, as the reader of a value puts them together. -/
structure Record.Assembles {α : Type} (r : Record α) (assemble : List (Option Json) → Option α) :
    Prop where
  ofJson?_eq : ∀ j, r.ofJson? j = (j.fields? r.names r.names.length).bind assemble
  missing : ∀ (part : String → Option Json), ∀ n ∈ r.names, n ∉ r.optional → part n = none →
    assemble (r.names.map part) = none
  omitted : ∀ (part : String → Option Json), ∀ n ∈ r.optional, part n = none →
    assemble (r.names.map part) = assemble (r.names.map (Function.update part n (some .null)))

/-- A value is written as an object of its parts and read from that object. -/
structure Record.Encodes {α : Type} (r : Record α) : Prop where
  toJson_eq : ∀ v, ∃ l : List (String × Json),
    r.toJson v = ofMembers l ∧ l.map Prod.fst = r.names ∧ ∀ p ∈ l, p.2.IsProper
  ofJson?_toJson : ∀ v, r.ofJson? (r.toJson v) = some v

namespace Record

variable {α : Type} {r : Record α} {assemble : List (Option Json) → Option α}

theorem read_objectText (r : Record α) (ms : List Member) :
    r.read (objectText ms) = r.ofJson? (objectOf ms) := by
  rw [read, parse_objectText, Option.bind_some]

theorem Assembles.read_congr (h : r.Assembles assemble) {ms ms' : List Member}
    (hms : ∀ n ∈ r.names, (valuesOf n ms).Perm (valuesOf n ms')) :
    r.read (objectText ms) = r.read (objectText ms') := by
  rw [read_objectText, read_objectText, h.ofJson?_eq, h.ofJson?_eq, fields?_congr hms]

theorem Assembles.read_repeated (h : r.Assembles assemble) {n : String} (hn : n ∈ r.names)
    {ms : List Member} (hms : 2 ≤ (valuesOf n ms).length) : r.read (objectText ms) = none := by
  have htwice : ¬ ∀ n ∈ r.names, (valuesOf n ms).length ≤ 1 := fun honce => by
    have := honce n hn
    omega
  rw [read_objectText, h.ofJson?_eq, fields?_objectOf, if_neg htwice, Option.bind_none]

theorem Assembles.read_missing (h : r.Assembles assemble) {n : String} (hn : n ∈ r.names)
    (hopt : n ∉ r.optional) {ms : List Member} (hms : valuesOf n ms = []) :
    r.read (objectText ms) = none := by
  rw [read_objectText, h.ofJson?_eq, fields?_objectOf]
  split
  · rw [Option.bind_some]
    exact h.missing (fun n => (valuesOf n ms).head?) n hn hopt (by rw [hms, List.head?_nil])
  · rw [Option.bind_none]

theorem Assembles.read_omitted (h : r.Assembles assemble) {m : Member} {ms : List Member}
    (hopt : m.name ∈ r.optional) (hnull : m.value = .null) (hms : valuesOf m.name ms = []) :
    r.read (objectText ms) = r.read (objectText (m :: ms)) := by
  have hparts : (fun n => (valuesOf n (m :: ms)).head?) =
      Function.update (fun n => (valuesOf n ms).head?) m.name (some .null) := by
    funext n
    by_cases hn : m.name = n
    · rw [← hn, Function.update_self, valuesOf_cons_self rfl, List.head?_cons, hnull]
    · rw [Function.update_of_ne (Ne.symm hn), valuesOf_cons_of_ne hn]
  have hcount (n : String) : (valuesOf n (m :: ms)).length ≤ 1 ↔ (valuesOf n ms).length ≤ 1 := by
    by_cases hn : m.name = n
    · rw [← hn, valuesOf_cons_self rfl, hms]
      simp
    · rw [valuesOf_cons_of_ne hn]
  rw [read_objectText, read_objectText, h.ofJson?_eq, h.ofJson?_eq, fields?_objectOf,
    fields?_objectOf]
  simp only [hcount]
  split
  · rw [Option.bind_some, Option.bind_some, hparts]
    exact h.omitted _ _ hopt (by rw [hms, List.head?_nil])
  · rfl

/-- Where no part may be left out, a reader that wants them all is one. -/
theorem Assembles.of_required (hjson : ∀ j,
      r.ofJson? j = (j.fields? r.names r.names.length).bind assemble)
    (hopt : r.optional = []) (hnone : ∀ parts, none ∈ parts → assemble parts = none) :
    r.Assembles assemble where
  ofJson?_eq := hjson
  missing part n hn _ hpart := hnone _ (List.mem_map.mpr ⟨n, hn, hpart⟩)
  omitted part n hn := by
    rw [hopt] at hn
    cases hn

theorem Encodes.lawful (henc : r.Encodes) (h : r.Assembles assemble) : r.Lawful where
  read_write v := by
    obtain ⟨l, hl, -, hproper⟩ := henc.toJson_eq v
    have hjson : (r.toJson v).IsProper := by
      rw [hl]
      exact isProper_ofMembers hproper
    rw [read, write, parse_print hjson, Option.bind_some, henc.ofJson?_toJson]
  written v := by
    obtain ⟨l, hl, hnames, hproper⟩ := henc.toJson_eq v
    obtain ⟨ms, hms, rfl⟩ := print_ofMembers hproper
    refine ⟨ms, by rw [write, hl, hms], ?_⟩
    rw [← hnames, List.map_map]
    rfl
  permuted ms ms' hms := h.read_congr fun n _ => valuesOf_perm hms
  extended m ms hm := by
    refine h.read_congr fun n hn => ?_
    rw [valuesOf_cons_of_ne (by rintro rfl; exact hm hn)]
  spaced text text' ht := by rw [read, read, parse_congr ht]
  omitted m ms hopt hnull hms := h.read_omitted hopt hnull (valuesOf_eq_nil hms)
  missing n hn hopt ms hms := h.read_missing hn hopt (valuesOf_eq_nil hms)
  repeated n hn ms hms := h.read_repeated hn (by rwa [length_valuesOf])

end Record

/-! ## The types -/

def Request.record : Record Request where
  names := ["language", "code", "session_id", "status"]
  optional := ["session_id"]
  toJson := Request.toJson
  ofJson? := Request.ofJson?

/-- A reply to a cell, inside the program as well as on its way to a caller. -/
def Reply.record : Record Reply where
  names := ["kind", "content"]
  optional := []
  toJson := Reply.toJson
  ofJson? := Reply.ofJson?

def Session.record : Record Session where
  names := ["id", "context", "history"]
  optional := []
  toJson := Session.toJson
  ofJson? := Session.ofJson?

def SessionKey.record : Record SessionKey where
  names := ["context", "id"]
  optional := []
  toJson := SessionKey.toJson
  ofJson? := SessionKey.ofJson?

def Context.record : Record Context where
  names := ["name", "executable_path"]
  optional := []
  toJson := Context.toJson
  ofJson? := Context.ofJson?

def Request.assemble : List (Option Json) → Option Request
  | [some l, some c, id, some s] => do
    return ⟨← l.text?, ← c.text?, ← optional sessionId? id, ← Status.ofJson? s⟩
  | _ => none

def Reply.assemble : List (Option Json) → Option Reply
  | [some k, some c] => do return ⟨← ReplyKind.ofJson? k, ← c.text?⟩
  | _ => none

def Session.assemble : List (Option Json) → Option Session
  | [some i, some c, some h] => do return ⟨← c.text?, ← i.sessionId?, ← h.texts?⟩
  | _ => none

def SessionKey.assemble : List (Option Json) → Option SessionKey
  | [some c, some i] => do return ⟨← c.text?, ← i.sessionId?⟩
  | _ => none

def Context.assemble : List (Option Json) → Option Context
  | [some n, some p] => do return ⟨← n.text?, ← p.text?⟩
  | _ => none

theorem Request.assembles : Request.record.Assembles Request.assemble where
  ofJson?_eq j := rfl
  missing part n hn hopt h := by
    simp only [Request.record, List.mem_cons, List.not_mem_nil, or_false] at hn hopt
    simp only [Request.record, List.map_cons, List.map_nil]
    unfold Request.assemble
    split
    · next he =>
      rcases hn with rfl | rfl | rfl | rfl
      · simp [h] at he
      · simp [h] at he
      · exact absurd rfl hopt
      · simp [h] at he
    · rfl
  omitted part n hn h := by
    obtain rfl : n = "session_id" := by simpa [Request.record] using hn
    simp only [Request.record, List.map_cons, List.map_nil]
    rw [h, Function.update_self, Function.update_of_ne (by decide), Function.update_of_ne (by decide),
      Function.update_of_ne (by decide)]
    cases part "language" <;> cases part "code" <;> cases part "status" <;> rfl

theorem Reply.assembles : Reply.record.Assembles Reply.assemble := by
  refine .of_required (fun _ => rfl) rfl fun parts h => ?_
  unfold Reply.assemble
  split
  · simp at h
  · rfl

theorem Session.assembles : Session.record.Assembles Session.assemble := by
  refine .of_required (fun _ => rfl) rfl fun parts h => ?_
  unfold Session.assemble
  split
  · simp at h
  · rfl

theorem SessionKey.assembles : SessionKey.record.Assembles SessionKey.assemble := by
  refine .of_required (fun _ => rfl) rfl fun parts h => ?_
  unfold SessionKey.assemble
  split
  · simp at h
  · rfl

theorem Context.assembles : Context.record.Assembles Context.assemble := by
  refine .of_required (fun _ => rfl) rfl fun parts h => ?_
  unfold Context.assemble
  split
  · simp at h
  · rfl

/-! ## Written and read -/

theorem sessionId?_toJson (i : SessionId) : sessionId? i.toJson = some i := by
  simp only [SessionId.toJson, ofInt, sessionId?, number?_sessionId i]
  exact SessionId.ofInt?_val i

theorem optional_sessionId (id : Option SessionId) :
    optional sessionId? (some (id.elim .null (·.toJson))) = some id := by
  cases id with
  | none => rfl
  | some i =>
    have hne : i.toJson ≠ .null := Json.noConfusion
    rw [Option.elim_some, Client.optional_ne_null _ hne, sessionId?_toJson, Option.map_some]

theorem text?_ofText (s : String) : (ofText s).text? = some s := rfl

theorem texts?_map_ofText (ss : List String) : (Json.array (ss.map ofText)).texts? = some ss := by
  rw [texts?]
  induction ss with
  | nil => rfl
  | cons s ss ih =>
    rw [List.map_cons, List.mapM_cons, text?_ofText, ih]
    rfl

theorem status_ofJson?_toJson (s : Status) : Status.ofJson? s.toJson = some s :=
  Status.ofText?_text s

theorem replyKind_ofJson?_toJson (k : ReplyKind) : ReplyKind.ofJson? k.toJson = some k :=
  ReplyKind.ofText?_text k

theorem Request.encodes : Request.record.Encodes where
  toJson_eq r := by
    refine ⟨_, rfl, rfl, ?_⟩
    have hid : (r.sessionId.elim Json.null (·.toJson)).IsProper := by
      cases r.sessionId with
      | none => exact .null
      | some i => exact isProper_sessionId i
    simp only [List.forall_mem_cons]
    exact ⟨isProper_ofText _, isProper_ofText _, hid, isProper_ofText _, List.forall_mem_nil _⟩
  ofJson?_toJson r := by
    show Request.ofJson? r.toJson = some r
    rw [Request.ofJson?, Request.toJson]
    simp [fields?, ofMembers, text?_ofText, optional_sessionId, status_ofJson?_toJson]

theorem Reply.encodes : Reply.record.Encodes where
  toJson_eq r := by
    refine ⟨_, rfl, rfl, ?_⟩
    simp only [List.forall_mem_cons]
    exact ⟨isProper_ofText _, isProper_ofText _, List.forall_mem_nil _⟩
  ofJson?_toJson r := by
    show Reply.ofJson? r.toJson = some r
    rw [Reply.ofJson?, Reply.toJson]
    simp [fields?, ofMembers, text?_ofText, replyKind_ofJson?_toJson]

theorem Session.encodes : Session.record.Encodes where
  toJson_eq s := by
    refine ⟨_, rfl, rfl, ?_⟩
    have hhistory : (Json.array (s.history.map ofText)).IsProper := by
      refine .array fun j hj => ?_
      obtain ⟨fragment, -, rfl⟩ := List.mem_map.mp hj
      exact isProper_ofText fragment
    simp only [List.forall_mem_cons]
    exact ⟨isProper_sessionId s.id, isProper_ofText _, hhistory, List.forall_mem_nil _⟩
  ofJson?_toJson s := by
    show Session.ofJson? s.toJson = some s
    rw [Session.ofJson?, Session.toJson]
    simp [fields?, ofMembers, text?_ofText, sessionId?_toJson, texts?_map_ofText]

theorem SessionKey.encodes : SessionKey.record.Encodes where
  toJson_eq k := by
    refine ⟨_, rfl, rfl, ?_⟩
    simp only [List.forall_mem_cons]
    exact ⟨isProper_ofText _, isProper_sessionId k.id, List.forall_mem_nil _⟩
  ofJson?_toJson k := by
    show SessionKey.ofJson? k.toJson = some k
    rw [SessionKey.ofJson?, SessionKey.toJson]
    simp [fields?, ofMembers, text?_ofText, sessionId?_toJson]

theorem Context.encodes : Context.record.Encodes where
  toJson_eq c := by
    refine ⟨_, rfl, rfl, ?_⟩
    simp only [List.forall_mem_cons]
    exact ⟨isProper_ofText _, isProper_ofText _, List.forall_mem_nil _⟩
  ofJson?_toJson c := by
    show Context.ofJson? c.toJson = some c
    rw [Context.ofJson?, Context.toJson]
    simp [fields?, ofMembers, text?_ofText]

/-- Space may be put between any two tokens. -/
theorem Record.Lawful.read_insert {α : Type} {r : Record α} (h : r.Lawful) {cs s rest : List Char}
    (hapart : Apart cs rest) (hs : ∀ c ∈ s, isSpace c = true) :
    r.read (.ofList (cs ++ (s ++ rest))) = r.read (.ofList (cs ++ rest)) := by
  refine h.spaced _ _ ?_
  rw [String.toList_ofList, String.toList_ofList, tokens_insert hapart hs]

/-- The members of a written value in any order, with others of other names among them and with any
space between the tokens, are read as that value. -/
theorem Record.Lawful.read_rearranged {α : Type} {r : Record α} (h : r.Lawful) (v : α) :
    ∃ ms : List Member, r.write v = objectText ms ∧
      ∀ (others ms' : List Member) (text : String), (∀ m ∈ others, m.name ∉ r.names) →
        ms'.Perm (others ++ ms) → tokens text.toList = tokens (objectText ms').toList →
        r.read text = some v := by
  obtain ⟨ms, hms, -⟩ := h.written v
  refine ⟨ms, hms, fun others ms' text hothers hperm ht => ?_⟩
  rw [h.spaced _ _ ht, h.permuted _ _ hperm]
  clear hperm ht
  induction others with
  | nil => rw [List.nil_append, ← hms, h.read_write]
  | cons m others ih =>
    obtain ⟨hm, hothers⟩ := List.forall_mem_cons.mp hothers
    rw [List.cons_append, h.extended m _ hm, ih hothers]

/-- What is written is read back, in each of the types, and the types with named parts are read by
the names of the parts alone. -/
theorem lawful_records :
    (∀ s : Status, (parse s.toJson.print).bind Status.ofJson? = some s) ∧
    (∀ k : ReplyKind, (parse k.toJson.print).bind ReplyKind.ofJson? = some k) ∧
    Request.record.Lawful ∧ Reply.record.Lawful ∧ Session.record.Lawful ∧
    SessionKey.record.Lawful ∧ Context.record.Lawful := by
  refine ⟨fun s => ?_, fun k => ?_, Request.encodes.lawful Request.assembles,
    Reply.encodes.lawful Reply.assembles, Session.encodes.lawful Session.assembles,
    SessionKey.encodes.lawful SessionKey.assembles, Context.encodes.lawful Context.assembles⟩
  · rw [Status.toJson, parse_print (isProper_ofText s.text)]
    exact status_ofJson?_toJson s
  · rw [ReplyKind.toJson, parse_print (isProper_ofText k.text)]
    exact replyKind_ofJson?_toJson k

example : SessionKey.record.read
    " \x7b \"x\": [null], \"i\\u0064\" :-2 ,\"context\":\"a\\n\" \x7d" =
      some ⟨"a\n", ⟨-2, by decide, by decide⟩⟩ := by decide +kernel

end CellReplay
