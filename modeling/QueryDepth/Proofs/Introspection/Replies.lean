import QueryDepth.Proofs.CommandLine.ExitCode
import QueryDepth.SchemaSource.Load

/-!
# What a service may reply

A service is foreign, so its reply has any status and any body. A reply should either deliver its
data or be reported as a failed introspection: for its status, for a body that is no JSON, or for
the errors that it holds. Three of the five introspection errors are such reports. Of the other two,
one is that no reply came, and one is that a value was asked for a member that it does not have.

**Theorem (`askService_settles_iff`).** A reply delivers its data or is reported exactly if it
leaves no other way: its status is not 200, or its body is no JSON, or its body is an object with
errors or data. Every other reply ends with the error of a member that is not there. So an object
that holds neither is not reported, and neither is a list, a text, a number, a truth value or null.

The cases are those of `Reply.Answers`, which says once what a reply answers.
-/

namespace QueryDepth.Introspection

/-! ## What a reply answers -/

/-- What a reply answers, by its status and its body. -/
inductive Reply.Answers (reply : Reply) : Except IntrospectionError Json → Prop
  | badStatus : reply.status ≠ 200 → Answers reply (.error (.badStatus reply.status))
  | notJson {e : Json.ReadError} :
      reply.status = 200 → Json.read reply.body = .error e →
      Answers reply (.error (.notJson reply e))
  | noObject {payload : Json} {e : Json.MemberError} :
      reply.status = 200 → Json.read reply.body = .ok payload →
      (∀ members, payload ≠ .obj members) → Answers reply (.error (.member e))
  | errors {members : List (String × Json)} {errors : Json} :
      reply.status = 200 → Json.read reply.body = .ok (.obj members) →
      members.lookup "errors" = some errors → Answers reply (.error (.reported errors))
  | data {members : List (String × Json)} {data : Json} :
      reply.status = 200 → Json.read reply.body = .ok (.obj members) →
      members.lookup "errors" = none → members.lookup "data" = some data →
      Answers reply (.ok data)
  | noData {members : List (String × Json)} :
      reply.status = 200 → Json.read reply.body = .ok (.obj members) →
      members.lookup "errors" = none → members.lookup "data" = none →
      Answers reply (.error (.member (.missing "data")))

/-- What the payload of a reply answers. -/
def answerOf (payload : Json) : Except IntrospectionError Json :=
  match payload.has "errors" with
  | .error e => .error (.member e)
  | .ok true => match payload.item "errors" with
    | .error e => .error (.member e)
    | .ok errors => .error (.reported errors)
  | .ok false => (payload.item "data").mapError .member

theorem Reply.data_of_status {reply : Reply} (hstatus : reply.status ≠ 200) :
    reply.data = .error (.badStatus reply.status) := by
  unfold Reply.data
  rw [if_pos hstatus]
  rfl

theorem Reply.data_of_notJson {reply : Reply} {e : Json.ReadError} (hstatus : reply.status = 200)
    (hread : Json.read reply.body = .error e) : reply.data = .error (.notJson reply e) := by
  unfold Reply.data
  rw [if_neg (not_not_intro hstatus), hread]
  rfl

theorem Reply.data_of_read {reply : Reply} {payload : Json} (hstatus : reply.status = 200)
    (hread : Json.read reply.body = .ok payload) : reply.data = answerOf payload := by
  unfold Reply.data answerOf
  rw [if_neg (not_not_intro hstatus), hread]
  simp only [pure_bind]
  rcases payload.has "errors" with e | _ | _
  · rfl
  · rcases payload.item "data" with e | data <;> rfl
  · rcases payload.item "errors" with e | errors <;> rfl

/-- A value that is no object has no member to answer with, whether it holds the name or not. -/
theorem exists_answerOf_eq_member {payload : Json} (h : ∀ members, payload ≠ .obj members) :
    ∃ e, answerOf payload = .error (.member e) := by
  unfold answerOf
  cases payload with
  | obj members => exact absurd rfl (h members)
  | arr items => cases hhas : Json.has "errors" (.arr items) with
    | error e => exact ⟨e, rfl⟩
    | ok found => cases found <;> exact ⟨.listIndex, rfl⟩
  | str text => cases hhas : Json.has "errors" (.str text) with
    | error e => exact ⟨e, rfl⟩
    | ok found => cases found <;> exact ⟨.textIndex, rfl⟩
  | _ => exact ⟨_, rfl⟩

theorem Reply.answers_data (reply : Reply) : reply.Answers reply.data := by
  by_cases hstatus : reply.status = 200
  · cases hread : Json.read reply.body with
    | error e =>
      rw [data_of_notJson hstatus hread]
      exact .notJson hstatus hread
    | ok payload =>
      rw [data_of_read hstatus hread]
      by_cases hobject : ∃ members, payload = .obj members
      · obtain ⟨members, rfl⟩ := hobject
        unfold answerOf
        simp only [Json.has, Json.item]
        cases herrors : members.lookup "errors" with
        | some errors => exact .errors hstatus hread herrors
        | none =>
          cases hdata : members.lookup "data" with
          | some data => exact .data hstatus hread herrors hdata
          | none => exact .noData hstatus hread herrors hdata
      · have hother : ∀ members, payload ≠ .obj members := not_exists.1 hobject
        obtain ⟨e, he⟩ := exists_answerOf_eq_member hother
        rw [he]
        exact .noObject hstatus hread hother
  · rw [data_of_status hstatus]
    exact .badStatus hstatus

/-! ## Replies that are settled -/

/-- The errors that report a failed introspection. -/
def IntrospectionError.isReport : IntrospectionError → Bool
  | .badStatus _ | .notJson _ _ | .reported _ => true
  | .unreachable _ | .member _ => false

/-- The value is the data of an object without errors that came with status 200. -/
def Reply.Delivers (reply : Reply) (data : Json) : Prop :=
  ∃ members, reply.status = 200 ∧ Json.read reply.body = .ok (.obj members) ∧
    members.lookup "errors" = none ∧ members.lookup "data" = some data

/-- With this result a reply is settled: its data are delivered, or its failure is reported. -/
def Reply.Settles (reply : Reply) (result : Except Failure Json) : Prop :=
  (∃ data, reply.Delivers data ∧ result = .ok data) ∨
    ∃ e : IntrospectionError, e.isReport = true ∧ result = .error (.introspection e)

/-- What is read from a reply with status 200 is an object with errors or data. -/
def Reply.IsProper (reply : Reply) : Prop :=
  reply.status = 200 → ∀ payload, Json.read reply.body = .ok payload →
    ∃ members, payload = .obj members ∧
      ((members.lookup "errors").isSome ∨ (members.lookup "data").isSome)

variable {reply : Reply} {result : Except IntrospectionError Json}

theorem not_settles_member (e : Json.MemberError) :
    ¬ reply.Settles (.error (.introspection (.member e))) := by
  rintro (⟨data, -, hresult⟩ | ⟨e', hreport, hresult⟩)
  · exact nomatch hresult
  · obtain rfl : .member e = e' := Failure.introspection.inj (Except.error.inj hresult)
    exact nomatch hreport

theorem Reply.settles_report {e : IntrospectionError} (h : e.isReport = true) :
    reply.Settles (.error (.introspection e)) := .inr ⟨e, h, rfl⟩

/-- A reply is settled if it is proper, and otherwise it ends with the error of a member. -/
theorem Reply.Answers.settled (h : reply.Answers result) :
    (reply.IsProper ∧ reply.Settles (result.mapError .introspection)) ∨
      (¬ reply.IsProper ∧ ∃ e, result = .error (.member e)) := by
  cases h with
  | badStatus hstatus =>
    exact .inl ⟨fun h => absurd h hstatus, settles_report rfl⟩
  | notJson hstatus hread =>
    refine .inl ⟨fun _ payload hpayload => ?_, settles_report rfl⟩
    rw [hread] at hpayload
    exact nomatch hpayload
  | noObject hstatus hread hother =>
    refine .inr ⟨fun hproper => ?_, _, rfl⟩
    obtain ⟨members, hobject, -⟩ := hproper hstatus _ hread
    exact hother members hobject
  | errors hstatus hread herrors =>
    refine .inl ⟨fun _ payload hpayload => ?_, settles_report rfl⟩
    obtain rfl := Except.ok.inj (hread.symm.trans hpayload)
    exact ⟨_, rfl, .inl (by rw [herrors]; rfl)⟩
  | data hstatus hread herrors hdata =>
    have hdelivers : reply.Delivers _ := ⟨_, hstatus, hread, herrors, hdata⟩
    refine .inl ⟨fun _ payload hpayload => ?_, .inl ⟨_, hdelivers, rfl⟩⟩
    obtain rfl := Except.ok.inj (hread.symm.trans hpayload)
    exact ⟨_, rfl, .inr (by rw [hdata]; rfl)⟩
  | noData hstatus hread herrors hdata =>
    refine .inr ⟨fun hproper => ?_, _, rfl⟩
    obtain ⟨members, hobject, hmember⟩ := hproper hstatus _ hread
    obtain rfl := Json.obj.inj hobject
    rw [herrors, hdata] at hmember
    simp at hmember

end QueryDepth.Introspection

namespace QueryDepth

open Introspection

/-- The machine with a service that replies. -/
def Sandbox.replying (s : Sandbox) (reply : Reply) : Sandbox := { s with reply := some reply }

namespace SchemaSource

/-! ## Asking a service -/

/-- What asking a service gives on a machine. -/
def askOn (url : Data) (token : Option String) (s : Sandbox) : Except Failure Json :=
  ((askService url token : SandboxTask Json) s).1

/-- A service that replies is sent one request, and the result is what its reply answers. -/
theorem askService_replying (url : Data) (token : Option String) (s : Sandbox) (reply : Reply) :
    (askService url token : SandboxTask Json) (s.replying reply) =
      (reply.data.mapError .introspection,
        { s.replying reply with sent := s.sent ++ [request url token] }) := by
  have hdata : (askService url token : SandboxTask Json) (s.replying reply) =
      (Task.ofExcept .introspection reply.data : SandboxTask Json)
        { s.replying reply with sent := s.sent ++ [request url token] } := rfl
  rw [hdata]
  cases reply.data <;> rfl

theorem askOn_replying (url : Data) (token : Option String) (s : Sandbox) (reply : Reply) :
    askOn url token (s.replying reply) = reply.data.mapError .introspection :=
  congrArg Prod.fst (askService_replying url token s reply)

/-- **Every proper reply is settled, and no other.** Whatever the status and the body of a reply
are, its data are delivered or its failure is reported exactly if it has another status than 200, a
body that is no JSON, or an object with errors or data. Any other reply ends with the error of a
member that is not there. -/
theorem askService_settles_iff (url : Data) (token : Option String) (s : Sandbox) (reply : Reply) :
    (reply.Settles (askOn url token (s.replying reply)) ↔ reply.IsProper) ∧
      (¬ reply.IsProper →
        ∃ e, askOn url token (s.replying reply) = .error (.introspection (.member e))) := by
  rw [askOn_replying]
  rcases reply.answers_data.settled with ⟨hproper, hsettles⟩ | ⟨himproper, e, hdata⟩
  · exact ⟨iff_of_true hsettles hproper, fun h => absurd hproper h⟩
  · rw [hdata]
    exact ⟨iff_of_false (not_settles_member e) himproper, fun _ => ⟨e, rfl⟩⟩

/-- A reply with an object that holds nothing. -/
def bareReply : Reply := ⟨200, "{}", [], "https://api.test"⟩

/-- **An object that holds nothing is not reported.** -/
theorem not_askService_settles : ¬ ∀ (url : Data) (token : Option String) (s : Sandbox)
    (reply : Reply), reply.Settles (askOn url token (s.replying reply)) := by
  intro h
  have hbare := h (.text "https://api.test") none (CommandLine.machine []) bareReply
  have hread : Json.read bareReply.body = .ok (.obj []) := rfl
  have hdata : bareReply.data = .error (.member (.missing "data")) := by
    rw [Reply.data_of_read rfl hread]
    rfl
  rw [askOn_replying, hdata] at hbare
  exact not_settles_member _ hbare

end SchemaSource

end QueryDepth
