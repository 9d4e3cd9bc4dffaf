import Provisioner.Cloud.Hetzner
import Provisioner.Proofs.Inputs.Stored
import Provisioner.Proofs.Text.Utf8

/-!
# What the provider's replies tell

Whatever an action is called and however it stands, a reply can tell of it (`Action.read_reply`). A
reply that cannot be read is a refusal, no answer at all, or one that says something else
(`Reply.success_or_undecodable`), and none of these is taken for an action that was given up.
-/

namespace Provisioner.Hetzner

/-! ## Actions -/

/-- What is told about why an action failed. -/
def reasonJson (reason : String) : Json.Value := .record [("message", .text reason)]

namespace Action

variable (action : Action)

/-- What is told about an action. -/
def fields : List (String × Option Json.Value) :=
  [("id", some (.int action.id.toInt)), ("status", some (.text action.status)),
    ("error", action.error.map reasonJson)]

/-- The answer that tells of an action. -/
def answer : Json.Value := .record [("action", .ofFields action.fields)]

/-- The reply that brings this answer. -/
def reply : Reply := .answer 200 (Text.Utf8.encode action.answer.chars)

theorem readActionAnswer_answer : readActionAnswer action.answer = some action := by
  have hd : (action.fields.map (·.1)).Nodup := by simp [fields]
  have hr : (Json.Value.ofFields action.fields).record? ["id", "status", "error"] =
      some ⟨false, Json.given action.fields⟩ := Json.record?_ofFields hd (by simp [fields])
  have hi : action.fields.lookup "id" = some (some (.int action.id.toInt)) := by simp [fields]
  have hs : action.fields.lookup "status" = some (some (.text action.status)) := by
    simp [fields, List.lookup_cons]
  have he : action.fields.lookup "error" = some (action.error.map reasonJson) := by
    simp [fields, List.lookup_cons]
  have hid : Json.Value.int64? (.int action.id.toInt) = some action.id :=
    Json.Number.toInt64?_ofInt action.id
  have herror : Json.Record.optional ⟨false, Json.given action.fields⟩ "error"
      (Json.Value.nullable? readActionError) = some action.error := by
    rw [Json.Record.optional, Json.Record.get?, Json.lookup_given hd, he]
    cases action.error <;> rfl
  have hread : readAction (.ofFields action.fields) = some action := by
    simp [readAction, hr, Json.Record.required_given hd hi, Json.Record.required_given hd hs, hid,
      herror]
  exact hread

theorem plain_answer : action.answer.Plain 3 := by
  refine .record _ fun member h => ?_
  obtain rfl := List.mem_singleton.mp h
  refine Json.plain_ofFields fun f hf => ?_
  simp only [fields, List.mem_cons, List.not_mem_nil, or_false] at hf
  obtain rfl | rfl | rfl := hf
  · intro v hv
    obtain rfl := Option.mem_some_iff.mp hv
    have hlow := action.id.le_toInt
    have hhigh := action.id.toInt_lt
    exact .int _ (by simp only [UInt64.size]; omega)
  · intro v hv
    obtain rfl := Option.mem_some_iff.mp hv
    exact .text action.status
  · intro v hv
    obtain ⟨reason, -, rfl⟩ := Option.map_eq_some_iff.mp hv
    refine .record _ fun member h => ?_
    obtain rfl := List.mem_singleton.mp h
    exact .text reason

/-- **Every action can be told of.** -/
theorem read_reply : action.reply.read readActionAnswer = .ok action := by
  have hparse : Json.parseBytes .lenient (Text.Utf8.encode action.answer.chars) =
      .ok action.answer := by
    rw [Json.parseBytes_encode]
    exact Json.parse_chars action.plain_answer trivial
  simp [reply, Reply.read, Reply.success, hparse, readActionAnswer_answer, bind, Except.bind, pure,
    Except.pure]

end Action

/-! ## Replies that are not read -/

namespace Reply

variable {reply : Reply}

/-- What counts as a success is told by the status alone. -/
theorem success_eq_ok_iff {body : List UInt8} :
    reply.success = .ok body ↔ ∃ status, reply = .answer status body ∧ 200 ≤ status ∧ status < 300 := by
  cases reply with
  | none reason => simp [success]
  | answer status text =>
    by_cases hstatus : 200 ≤ status ∧ status < 300
    · simp [success, hstatus]
    · simp [success, hstatus]

theorem success_or_undecodable {α : Type} {read : Json.Value → Option α}
    {failure : ProviderFailure} (h : reply.read read = .error failure) :
    reply.success = .error failure ∨ failure = undecodable := by
  have hthrown : ∀ {a : Except ProviderFailure α}, a = throw undecodable → a = .error failure →
      failure = undecodable := by
    rintro a rfl ha
    exact (Except.error.inj ha).symm
  unfold Reply.read at h
  cases hbody : reply.success with
  | error other =>
    rw [hbody] at h
    exact .inl (congrArg _ (Except.error.inj h))
  | ok body =>
    rw [hbody] at h
    simp only [bind, Except.bind] at h
    right
    split at h
    · split at h
      · cases h
      · exact hthrown rfl h
    · exact hthrown rfl h

/-- Only the wait itself gives an action up. -/
theorem read_ne_actionUnfinished {α : Type} {read : Json.Value → Option α} {id : Int64}
    {seconds : Nat} : reply.read read ≠ .error (.actionUnfinished id seconds) := by
  intro h
  rcases success_or_undecodable h with hsuccess | hundecodable
  · unfold success at hsuccess
    split at hsuccess
    · cases hsuccess
    · split at hsuccess <;> cases hsuccess
  · cases hundecodable

end Reply

/-- A machine is deleted with success if the one request for that is answered by a success. -/
theorem delete_eq_ok_iff {id : MachineId} {replies : Nat → TimedReply} :
    (delete id replies).result = .ok () ↔
      ∃ status body, (replies 0).reply = .answer status body ∧ 200 ≤ status ∧ status < 300 := by
  have hresult : (delete id replies).result = (replies 0).reply.success.map fun _ => () := rfl
  rw [hresult]
  constructor
  · intro hok
    cases hsuccess : (replies 0).reply.success with
    | error failure =>
      rw [hsuccess] at hok
      cases hok
    | ok body =>
      obtain ⟨status, hanswer⟩ := Reply.success_eq_ok_iff.mp hsuccess
      exact ⟨status, body, hanswer⟩
  · rintro ⟨status, body, hanswer⟩
    rw [Reply.success_eq_ok_iff.mpr ⟨status, hanswer⟩]
    rfl

end Provisioner.Hetzner
