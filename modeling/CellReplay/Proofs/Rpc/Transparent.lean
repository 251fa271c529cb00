import CellReplay.Proofs.Service.Courses
import CellReplay.Rpc.Methods

/-!
# Proofs.Rpc.Transparent

What bodies that are sent one after the other do, in terms of the cells that they ask to run.

* `Body.orders`          — the cells of a body: those of its requests that name the method for it
  under a valid id, with parameters that can be read.
* `Service.Runs`         — cells that are run one after the other, each exactly once.
* `Invocation.Answered`, `Answered`, `Body.Answered` — how a request, the messages of a batch and a
  body are answered, given the replies to the cells among them.
* `served_serveBodies`   — the bodies run their cells and nothing else, and are answered that way.
-/

namespace CellReplay

variable {ε : Type}

/-! ## Cells one after the other -/

/-- Cells that are run one after the other, with the reply to each and the world after it. -/
inductive Service.Runs (o : Surroundings ε) (s : Service) :
    World ε → List ExecuteOrder → List (Reply × World ε) → Prop
  | nil {w : World ε} : Runs o s w [] []
  | cons {w w' : World ε} {e : ExecuteOrder} {es : List ExecuteOrder} {r : Reply}
      {rs : List (Reply × World ε)} :
      (s.execute e.code e.sessionField).exec o 0 w = (some r, w') → Runs o s w' es rs →
        Runs o s w (e :: es) ((r, w') :: rs)

/-- The world after cells have been run in it. -/
def World.afterRuns (w : World ε) : List (Reply × World ε) → World ε
  | [] => w
  | (_, w') :: rs => w'.afterRuns rs

theorem World.afterRuns_append (w : World ε) (rs rs' : List (Reply × World ε)) :
    w.afterRuns (rs ++ rs') = (w.afterRuns rs).afterRuns rs' := by
  induction rs generalizing w with
  | nil => rfl
  | cons r rs ih => exact ih r.2

theorem Service.Runs.append {o : Surroundings ε} {s : Service} {w : World ε}
    {es es' : List ExecuteOrder} {rs rs' : List (Reply × World ε)} (h : s.Runs o w es rs)
    (h' : s.Runs o (w.afterRuns rs) es' rs') : s.Runs o w (es ++ es') (rs ++ rs') := by
  induction h with
  | nil => exact h'
  | cons he _ ih => exact .cons he (ih h')

theorem Service.Runs.length_eq {o : Surroundings ε} {s : Service} {w : World ε}
    {es : List ExecuteOrder} {rs : List (Reply × World ε)} (h : s.Runs o w es rs) :
    rs.length = es.length := by
  induction h with
  | nil => rfl
  | cons _ _ ih => rw [List.length_cons, List.length_cons, ih]

/-- A cell always gets a reply while nobody else holds or awaits a lock. -/
theorem exec_cell (o : Surroundings ε) (s : Service) (e : ExecuteOrder) {w : World ε}
    (hw : w.locks.Unused) :
    ∃ r w', (s.execute e.code e.sessionField).exec o 0 w = (some r, w') ∧ w'.locks.Unused := by
  obtain ⟨r, w', he, hr⟩ := Course.exec_execute o 0 s e.code e.sessionField hw
  exact ⟨r, w', he, hr.unused hw⟩

namespace Rpc

/-! ## The cells of messages -/

def Invocation.order? (i : Invocation) : Option ExecuteOrder :=
  if i.method = executeMethod then ExecuteOrder.ofJson? i.params else none

def Message.order? : Message → Option ExecuteOrder
  | .invocation i => i.order?
  | .notification | .invalid _ => none

def Body.messages : Body → List Message
  | .single m => [m]
  | .batch ms => ms
  | .unreadable | .malformed => []

def Body.orders (b : Body) : List ExecuteOrder := b.messages.filterMap Message.order?

/-! ## Answers -/

/-- The response to a request, with the reply if it has a cell run. -/
inductive Invocation.Answered (i : Invocation) : List Reply → Response → Prop
  | executed {e : ExecuteOrder} {r : Reply} :
      i.method = executeMethod → ExecuteOrder.ofJson? i.params = some e →
        Answered i [r] ⟨i.id, .ok r.toJson⟩
  | undecoded : i.method = executeMethod → ExecuteOrder.ofJson? i.params = none →
      Answered i [] ⟨i.id, .error .invalidParams⟩
  | status : i.method = statusMethod → Answered i [] ⟨i.id, .ok (Json.ofText alive)⟩
  | unknown : i.method ≠ executeMethod → i.method ≠ statusMethod →
      Answered i [] ⟨i.id, .error .methodNotFound⟩

/-- The responses to messages, with the replies to the cells among them. -/
inductive Answered : List Message → List Reply → List Response → Prop
  | nil : Answered [] [] []
  | invocation {i : Invocation} {here later : List Reply} {r : Response} {ms : List Message}
      {rs : List Response} :
      i.Answered here r → Answered ms later rs →
        Answered (.invocation i :: ms) (here ++ later) (r :: rs)
  | notification {ms : List Message} {later : List Reply} {rs : List Response} :
      Answered ms later rs → Answered (.notification :: ms) later rs
  | invalid {id : Option CallId} {ms : List Message} {later : List Reply} {rs : List Response} :
      Answered ms later rs →
        Answered (.invalid id :: ms) later (⟨id.getD .null, .error .invalidRequest⟩ :: rs)

/-- The answer to a body, with the replies to the cells in it. -/
inductive Body.Answered : Body → List Reply → Answer → Prop
  | unreadable : Answered .unreadable [] .refused
  | malformed : Answered .malformed [] (.one ⟨.null, .error .parseError⟩)
  | invocation {i : Invocation} {replies : List Reply} {r : Response} :
      i.Answered replies r → Answered (.single (.invocation i)) replies (.one r)
  | notification : Answered (.single .notification) [] .silent
  | invalid {id : CallId} :
      Answered (.single (.invalid (some id))) [] (.one ⟨id, .error .invalidRequest⟩)
  | nameless : Answered (.single (.invalid none)) [] (.one ⟨.null, .error .parseError⟩)
  | empty : Answered (.batch []) [] (.one ⟨.null, .error .invalidRequest⟩)
  | batch {ms : List Message} {replies : List Reply} {r : Response} {rs : List Response} :
      Rpc.Answered ms replies (r :: rs) → Answered (.batch ms) replies (.many (r :: rs))
  | notifications {m : Message} {ms : List Message} {replies : List Reply} :
      Rpc.Answered (m :: ms) replies [] → Answered (.batch (m :: ms)) replies .silent

/-! ## One body -/

/-- A request that asks to run a cell is answered with the reply of that cell. -/
theorem respond_execute (s : Service) {i : Invocation} {e : ExecuteOrder}
    (hm : i.method = executeMethod) (he : ExecuteOrder.ofJson? i.params = some e) :
    respond s i = (s.execute e.code e.sessionField).bind fun r => .done ⟨i.id, .ok r.toJson⟩ := by
  have hstatus : i.method ≠ statusMethod := by rw [hm]; decide
  simp only [respond, if_neg hstatus, if_pos hm, he, executeOrder, Program.bind_eq,
    Program.pure_eq, Program.bind_assoc]
  rfl

section Bodies

variable (o : Surroundings ε) (s : Service)

/-- What a part of a body comes to that consists of the given cells. -/
def ComesTo (w : World ε) (es : List ExecuteOrder) {α : Type} (p : Program α)
    (answered : List Reply → α → Prop) : Prop :=
  ∃ rs a, s.Runs o w es rs ∧ p.exec o 0 w = (some a, w.afterRuns rs) ∧
    answered (rs.map Prod.fst) a ∧ (w.afterRuns rs).locks.Unused

theorem exec_respond (i : Invocation) {w : World ε} (hw : w.locks.Unused) :
    ComesTo o s w i.order?.toList (respond s i) i.Answered := by
  unfold Invocation.order?
  by_cases hexecute : i.method = executeMethod
  · have hstatus : i.method ≠ statusMethod := by rw [hexecute]; decide
    rw [if_pos hexecute]
    cases he : ExecuteOrder.ofJson? i.params with
    | none =>
      rw [respond, if_neg hstatus, if_pos hexecute, he]
      exact ⟨[], _, .nil, rfl, .undecoded hexecute he, hw⟩
    | some e =>
      obtain ⟨r, w', hr, hw'⟩ := exec_cell o s e hw
      refine ⟨[(r, w')], ⟨i.id, .ok r.toJson⟩, .cons hr .nil, ?_, .executed hexecute he, hw'⟩
      rw [respond_execute s hexecute he, Program.exec_bind, hr]
      rfl
  · rw [if_neg hexecute, respond]
    by_cases hstatus : i.method = statusMethod
    · rw [if_pos hstatus]
      exact ⟨[], _, .nil, rfl, .status hstatus, hw⟩
    · rw [if_neg hstatus, if_neg hexecute]
      exact ⟨[], _, .nil, rfl, .unknown hexecute hstatus, hw⟩

theorem exec_respondAll (ms : List Message) {w : World ε} (hw : w.locks.Unused) :
    ComesTo o s w (ms.filterMap Message.order?) (respondAll s ms) (Answered ms) := by
  induction ms generalizing w with
  | nil => exact ⟨[], [], .nil, rfl, .nil, hw⟩
  | cons m ms ih =>
    cases m with
    | invocation i =>
      obtain ⟨here, r, hruns, hexec, hr, hw₁⟩ := exec_respond o s i hw
      obtain ⟨later, rs, hruns', hexec', hrs, hw₂⟩ := ih hw₁
      have horders : (Message.invocation i :: ms).filterMap Message.order? =
          i.order?.toList ++ ms.filterMap Message.order? := by
        cases hi : i.order? <;> simp [Message.order?, hi]
      refine ⟨here ++ later, r :: rs, ?_, ?_, ?_, ?_⟩
      · rw [horders]
        exact hruns.append hruns'
      · rw [World.afterRuns_append]
        simp only [respondAll, Program.bind_eq, Program.pure_eq]
        rw [Program.exec_bind, hexec]
        simp only [Program.exec_bind, hexec']
        rfl
      · rw [List.map_append]
        exact .invocation hr hrs
      · rw [World.afterRuns_append]
        exact hw₂
    | notification =>
      obtain ⟨later, rs, hruns, hexec, hrs, hw₁⟩ := ih hw
      exact ⟨later, rs, hruns, hexec, .notification hrs, hw₁⟩
    | invalid id =>
      obtain ⟨later, rs, hruns, hexec, hrs, hw₁⟩ := ih hw
      refine ⟨later, _, hruns, ?_, .invalid hrs, hw₁⟩
      simp only [respondAll, Program.bind_eq, Program.pure_eq]
      rw [Program.exec_bind, hexec]
      rfl

theorem answered_batchAnswer {ms : List Message} {replies : List Reply} {rs : List Response}
    (h : Answered ms replies rs) : (Body.batch ms).Answered replies (batchAnswer ms rs) := by
  cases ms with
  | nil => cases h; exact .empty
  | cons m ms =>
    cases rs with
    | nil => exact .notifications h
    | cons r rs => exact .batch h

theorem exec_answer (body : String) {w : World ε} (hw : w.locks.Unused) :
    ComesTo o s w (Body.read body).orders (answer s body) (Body.read body).Answered := by
  unfold answer
  cases Body.read body with
  | unreadable => exact ⟨[], _, .nil, rfl, .unreadable, hw⟩
  | malformed => exact ⟨[], _, .nil, rfl, .malformed, hw⟩
  | single m =>
    cases m with
    | invocation i =>
      obtain ⟨here, r, hruns, hexec, hr, hw₁⟩ := exec_respond o s i hw
      have horders : (Body.single (.invocation i)).orders = i.order?.toList := by
        cases hi : i.order? <;> simp [Body.orders, Body.messages, Message.order?, hi]
      refine ⟨here, .one r, by rwa [horders], ?_, .invocation hr, hw₁⟩
      simp only [Program.bind_eq, Program.pure_eq]
      rw [Program.exec_bind, hexec]
      rfl
    | notification => exact ⟨[], _, .nil, rfl, .notification, hw⟩
    | invalid id =>
      cases id with
      | some id => exact ⟨[], _, .nil, rfl, .invalid, hw⟩
      | none => exact ⟨[], _, .nil, rfl, .nameless, hw⟩
  | batch ms =>
    obtain ⟨rs, a, hruns, hexec, ha, hw₁⟩ := exec_respondAll o s ms hw
    refine ⟨rs, _, hruns, ?_, answered_batchAnswer ha, hw₁⟩
    simp only [Program.bind_eq, Program.pure_eq]
    rw [Program.exec_bind, hexec]
    rfl

/-! ## Bodies one after the other -/

/-- The answers to bodies that are sent one after the other, each with the world after it. -/
def serveBodies : List String → World ε → List (Option Answer × World ε)
  | [], _ => []
  | body :: bodies, w =>
    let (a, w) := (answer s body).exec o 0 w
    (a, w) :: serveBodies bodies w

/-- Bodies run their cells and nothing else: to every body belong some of the calls, in order; they
run the cells of that body, bring the world from where it was before the body to where it is after
it, and their replies are what the body is answered with. -/
inductive Served : World ε → List String → List (Reply × World ε) →
    List (Option Answer × World ε) → Prop
  | nil {w : World ε} : Served w [] [] []
  | cons {w : World ε} {body : String} {bodies : List String} {a : Answer}
      {here later : List (Reply × World ε)} {answers : List (Option Answer × World ε)} :
      s.Runs o w (Body.read body).orders here →
        (Body.read body).Answered (here.map Prod.fst) a →
          Served (w.afterRuns here) bodies later answers →
            Served w (body :: bodies) (here ++ later) ((some a, w.afterRuns here) :: answers)

/-- To send bodies is to run their cells, one after the other and each exactly once. -/
theorem served_serveBodies (bodies : List String) {w : World ε} (hw : w.locks.Unused) :
    ∃ calls, s.Runs o w (bodies.flatMap fun body => (Body.read body).orders) calls ∧
      Served o s w bodies calls (serveBodies o s bodies w) := by
  induction bodies generalizing w with
  | nil => exact ⟨[], .nil, .nil⟩
  | cons body bodies ih =>
    obtain ⟨here, a, hruns, hexec, ha, hw₁⟩ := exec_answer o s body hw
    obtain ⟨later, hruns', hserved⟩ := ih hw₁
    refine ⟨here ++ later, hruns.append hruns', ?_⟩
    simp only [serveBodies, hexec]
    exact .cons hruns ha hserved

end Bodies

/-- Outside of this world every program prints the same. -/
def printing : Surroundings Unit where
  isThere _ _ := true
  run _ _ := (.ok ⟨some 0, "3"⟩, ())

def shellWorld : World Unit :=
  .new (.memory (MemoryStore.empty.saveContext ⟨"shell", "/bin/sh"⟩)) Registry.builtin .none ()

/-- A batch of a cell that can be read and of one without parameters, and then no body at all. -/
def mixedBodies : List String :=
  ["[\x7b\"jsonrpc\":\"2.0\",\"id\":1,\"method\":\"notebook.execute.v1\"," ++
      "\"params\":[\"%a b\"]\x7d," ++
      "\x7b\"jsonrpc\":\"2.0\",\"id\":2,\"method\":\"notebook.execute.v1\"\x7d]", "?"]

theorem served_serveBodies_mixed :
    let s : Service := ⟨⟨"", none⟩, .empty⟩
    shellWorld.locks.Unused ∧ ∃ calls, calls.length = 1 ∧
      Served printing s shellWorld mixedBodies calls
        (serveBodies printing s mixedBodies shellWorld) := by
  intro s
  have hw : shellWorld.locks.Unused := rfl
  obtain ⟨calls, hruns, hserved⟩ := served_serveBodies printing s mixedBodies hw
  have horders : (mixedBodies.flatMap fun body => (Body.read body).orders).length = 1 := by
    decide +kernel
  exact ⟨hw, calls, by rw [hruns.length_eq, horders], hserved⟩

end Rpc

end CellReplay
