import CellReplay.Client.Exchange
import CellReplay.Proofs.Json.RoundTrip
import CellReplay.Proofs.Rpc.Transparent

/-!
# Proofs.Client.Exchange

What the client sends is what the server reads, and what the server answers is what the client
shows.

* `read_executeMessage`  — the server reads the client's message as one request.
* `ofField_sessionField` — the session in it is the one that the client was given.
* `answer_execute`       — a request that is good is answered with the reply of its cell.
* `receive_reply`, `shown_reply` — the client reads that reply back, and shows it.
* `exchange_execute`     — both ways together.
-/

namespace CellReplay

open Json

/-! ## Values that are sent -/

theorem isProper_sessionId (i : SessionId) : i.toJson.IsProper := isProper_ofInt i.val

theorem number?_sessionId (i : SessionId) :
    Numeral.number? ⟨i.val < 0, Nat.toDigits 10 i.val.natAbs, none, none⟩ =
      some (.integer i.val) := by
  have hl := i.lower
  have hu := i.upper
  unfold Text.maxInt64 at hl hu
  exact number?_ofInt (by omega) (by unfold Numeral.maxUInt64; omega)

theorem isProper_reply (r : Reply) : r.toJson.IsProper := by
  refine isProper_ofMembers fun m hm => ?_
  simp only [List.mem_cons, List.not_mem_nil, or_false] at hm
  rcases hm with rfl | rfl <;> exact isProper_ofText _

namespace Rpc

theorem isProper_callId (id : CallId) : id.toJson.IsProper := by
  cases id with
  | null => exact .null
  | number n => exact isProper_ofInt n
  | text s => exact isProper_ofText s

theorem isProper_response {id : CallId} {j : Json} (h : j.IsProper) :
    (Response.toJson ⟨id, .ok j⟩).IsProper := by
  refine isProper_ofMembers fun m hm => ?_
  simp only [List.mem_cons, List.mem_append, List.not_mem_nil, or_false] at hm
  rcases hm with (rfl | rfl) | rfl
  · exact isProper_ofText _
  · exact isProper_callId id
  · exact h

/-- An object that is sent is read as one message. -/
theorem read_print_object {ms : List (Option String × Json)} (h : (Json.object ms).IsProper) :
    Body.read (Json.object ms).print = .single (.ofJson (.object ms)) := by
  obtain ⟨cs, hcs⟩ : ∃ cs, (Json.object ms).printChars = '\x7b' :: cs := by
    cases ms <;> exact ⟨_, rfl⟩
  have hparse := parse_print h
  rw [print, hcs] at hparse ⊢
  have hblank : Rpc.isBlank '\x7b' = false := by decide
  simp only [Body.read, String.toList_ofList, List.takeWhile_cons, List.dropWhile_cons, hblank,
    Bool.false_eq_true, if_false, List.length_nil, Nat.not_lt_zero, hparse]

theorem answer_execute (s : Service) {body : String} {i : Invocation} {o : ExecuteOrder}
    (hbody : Body.read body = .single (.invocation i)) (hm : i.method = executeMethod)
    (ho : ExecuteOrder.ofJson? i.params = some o) :
    answer s body = (s.execute o.code o.sessionField).bind fun r =>
      .done (.one ⟨i.id, .ok r.toJson⟩) := by
  rw [answer, hbody]
  simp only [respond_execute s hm ho, Program.bind_eq, Program.pure_eq, Program.bind_assoc]
  rfl

end Rpc

namespace Client

open Rpc

theorem ofJson_call (method : String) (params : Json) :
    Message.ofJson (Command.message?.call method params) =
      .invocation ⟨.number 1, method, params⟩ := by
  have hid : CallId.ofJson? (ofInt 1) = some (.number 1) := rfl
  simp [Message.ofJson, Message.invocation?, Command.message?.call, ofMembers, fields?, hid,
    Message.methodOf, text?, ofText, Rpc.version]

theorem optional_ne_null {α : Type} (read : Json → Option α) {j : Json} (h : j ≠ .null) :
    Json.optional read (some j) = (read j).map some := by
  cases j with
  | null => exact absurd rfl h
  | _ => rfl

theorem ofJson?_parameters (code : String) (session : Option SessionId) :
    ExecuteOrder.ofJson? (ofMembers [("code", ofText code),
      ("session_id", session.elim .null (·.toJson))]) = some ⟨code, session.map (·.toJson)⟩ := by
  cases session with
  | none => simp [ExecuteOrder.ofJson?, ofMembers, fields?, ofText, text?, Json.optional]
  | some i =>
    have hsound : i.toJson.isSound ExecuteOrder.maxDepth := by
      rw [SessionId.toJson, ofInt, isSound, number?_sessionId i]
      rfl
    have hne : i.toJson ≠ .null := by
      rw [SessionId.toJson, ofInt]
      exact Json.noConfusion
    simp [ExecuteOrder.ofJson?, ofMembers, fields?, ofText, text?, optional_ne_null _ hne, hsound]

theorem ofField_sessionField (code : String) (session : Option SessionId) :
    SessionId.ofField (ExecuteOrder.sessionField ⟨code, session.map (·.toJson)⟩) = session := by
  cases session with
  | none => rfl
  | some i =>
    simp only [ExecuteOrder.sessionField, Option.map_some, SessionId.toJson, ofInt,
      number?_sessionId i]
    exact SessionId.ofField_text i

/-- What the client sends to have a cell run. -/
def executeMessage (code : String) (session : Option SessionId) : Json :=
  Command.message?.call executeMethod (ofMembers [("code", ofText code),
    ("session_id", session.elim .null (·.toJson))])

theorem message?_withInput {code : String} (hcode : code ≠ "-") (session : Option SessionId)
    (input : String) :
    ((Command.execute code session).withInput input).message? =
      some (executeMessage code session) := by
  unfold Command.withInput
  split
  · next h => cases h; exact absurd rfl hcode
  · rfl

theorem isProper_executeMessage (code : String) (session : Option SessionId) :
    (executeMessage code session).IsProper := by
  have hsession : (session.elim Json.null (·.toJson)).IsProper := by
    cases session with
    | none => exact .null
    | some i => exact isProper_sessionId i
  refine isProper_ofMembers fun m hm => ?_
  simp only [List.mem_cons, List.not_mem_nil, or_false] at hm
  rcases hm with rfl | rfl | rfl | rfl
  · exact isProper_ofText _
  · exact isProper_ofText _
  · refine isProper_ofMembers fun m hm => ?_
    simp only [List.mem_cons, List.not_mem_nil, or_false] at hm
    rcases hm with rfl | rfl
    · exact isProper_ofText _
    · exact hsession
  · exact isProper_ofInt 1

theorem read_executeMessage (code : String) (session : Option SessionId) :
    Body.read (executeMessage code session).print = .single (.invocation ⟨.number 1, executeMethod,
      ofMembers [("code", ofText code), ("session_id", session.elim .null (·.toJson))]⟩) := by
  have hread := read_print_object (isProper_executeMessage code session)
  rw [← ofJson_call]
  exact hread

/-- A result that is no null reaches the client as it was. -/
theorem readReply_result {id : CallId} {j : Json} (hj : j.IsProper) (hs : j.isSound maxDepth)
    (hne : j ≠ .null) :
    readReply (Answer.one ⟨id, .ok j⟩).text = .ok j := by
  have hparse : Json.parse (Answer.one ⟨id, .ok j⟩).text = some (Response.toJson ⟨id, .ok j⟩) :=
    parse_print (isProper_response hj)
  have hparts : partsOf (Response.toJson ⟨id, .ok j⟩) = some (some j, none) := by
    simp only [partsOf, Response.toJson, ofMembers, fields?, List.map_cons, List.map_nil]
    simp [optional_ne_null _ hne, hs]
    rfl
  rw [readReply, hparse, Option.bind_some, hparts]

theorem isSound_reply (r : Reply) : r.toJson.isSound maxDepth := by
  simp [Reply.toJson, ReplyKind.toJson, ofMembers, ofText, isSound, membersSound, maxDepth]

/-- What the server sends back once a cell has got its reply. -/
def replyText (id : CallId) (r : Reply) : String := (Answer.one ⟨id, .ok r.toJson⟩).text

theorem receive_reply (id : CallId) (r : Reply) :
    receive (some (replyText id r)) = .ok r.toJson := by
  have hne : r.toJson ≠ .null := by
    rw [Reply.toJson, ofMembers]
    exact Json.noConfusion
  rw [receive]
  exact readReply_result (isProper_reply r) (isSound_reply r) hne

theorem resultOf?_toJson (r : Reply) : resultOf? r.toJson = some (r.kind.text, r.content) := by
  simp [resultOf?, Reply.toJson, ReplyKind.toJson, ofMembers, ofText, fields?, text?]

theorem shown_reply (url code : String) (session : Option SessionId) (id : CallId) (r : Reply) :
    shown false ⟨url, .execute code session⟩ (some (replyText id r)) =
      if r.kind = .error then ⟨1, "", r.content ++ "\n"⟩
      else ⟨0, if r.content = "" then "" else r.content ++ "\n", ""⟩ := by
  obtain ⟨kind, content⟩ := r
  rw [shown, receive_reply]
  simp only [showResult, resultOf?_toJson, styled]
  cases kind with
  | error => rfl
  | result =>
    have hkind : ReplyKind.result.text ≠ "error" := by decide
    rw [if_neg hkind]
    simp only [reduceCtorEq, if_false, String.isEmpty_iff]

/-- Client and server understand each other. The server reads the cell and the session that the
client was given, whatever they are, and answers with the reply of that cell; and whatever that
reply is, the client reads it back and shows it. -/
theorem exchange_execute (s : Service) {code : String} (hcode : code ≠ "-")
    (session : Option SessionId) (url input : String) :
    ∃ body o,
      ((Command.execute code session).withInput input).message?.map Json.print = some body ∧
      (∃ i, Body.read body = .single (.invocation i) ∧ i.method = executeMethod ∧
        ExecuteOrder.ofJson? i.params = some o) ∧
      o.code = code ∧ SessionId.ofField o.sessionField = session ∧
      Rpc.answer s body = (s.execute code o.sessionField).bind (fun r =>
        .done (.one ⟨.number 1, .ok r.toJson⟩)) ∧
      ∀ r : Reply,
        (receive (some (replyText (.number 1) r))).toOption.bind resultOf? =
          some (r.kind.text, r.content) ∧
        shown false ⟨url, .execute code session⟩ (some (replyText (.number 1) r)) =
          if r.kind = .error then ⟨1, "", r.content ++ "\n"⟩
          else ⟨0, if r.content = "" then "" else r.content ++ "\n", ""⟩ := by
  have hread := read_executeMessage code session
  have horder := ofJson?_parameters code session
  have hanswer := answer_execute s hread rfl horder
  dsimp only at hanswer
  refine ⟨(executeMessage code session).print, ⟨code, session.map (·.toJson)⟩, ?_, ?_, rfl,
    ofField_sessionField code session, ?_, fun r => ⟨?_, ?_⟩⟩
  · rw [message?_withInput hcode, Option.map_some]
  · exact ⟨_, hread, rfl, horder⟩
  · exact hanswer
  · simp only [receive_reply, Except.toOption, Option.bind_some, resultOf?_toJson]
  · exact shown_reply url code session (.number 1) r

/-- A cell with a quote, a line break and a letter beyond ASCII, in the session that is the last one
below zero. -/
theorem exchange_execute_quoted :
    let code := "%shell echo \"ä\"\n"
    let id : SessionId := ⟨-9223372036854775808, by decide, by decide⟩
    code ≠ "-" ∧ ∃ (body : String) (o : ExecuteOrder),
      ((Command.execute code (some id)).withInput "").message?.map Json.print = some body ∧
      o.code = code ∧ SessionId.ofField o.sessionField = some id ∧
      Rpc.answer ⟨⟨"", none⟩, .empty⟩ body =
        (Service.execute ⟨⟨"", none⟩, .empty⟩ code o.sessionField).bind (fun r =>
          .done (.one ⟨.number 1, .ok r.toJson⟩)) := by
  intro code id
  have hcode : code ≠ "-" := by decide
  obtain ⟨body, o, hbody, -, ho, hid, hanswer, -⟩ :=
    exchange_execute ⟨⟨"", none⟩, .empty⟩ hcode (some id) "" ""
  exact ⟨hcode, body, o, hbody, ho, hid, hanswer⟩

end Client

end CellReplay
