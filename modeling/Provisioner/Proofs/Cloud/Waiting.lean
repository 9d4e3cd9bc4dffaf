import Provisioner.Proofs.Cloud.Reply

/-!
# How waiting for an action ends

Nothing counts the requests that are made while an action is waited for. They end because each
comes at least one pause behind the one before it, and none is made once the time is over.

`told` is what is known of the action after some requests and `moment` how long these took, both
said without the loop. After `k` requests another one is made (`Waits`) if the action is known and
unfinished and there is time left; otherwise what is known then decides (`Decides`). A wait ends
with the first `k` of which this is so (`exists_ends`), and from that its whole report follows
(`poll_report`).
-/

namespace Provisioner.Hetzner

namespace Action

/-- An action that has neither succeeded nor failed, whatever its status is called. -/
def Unfinished (action : Action) : Prop := action.status ≠ "success" ∧ action.status ≠ "error"

variable {action : Action}

theorem ending?_eq_none_iff : action.ending? = none ↔ action.Unfinished := by
  unfold ending? Unfinished
  split
  · simp [*]
  · split <;> simp [*]

theorem ending?_eq_ok_iff : action.ending? = some (.ok ()) ↔ action.status = "success" := by
  unfold ending?
  split
  · simp [*]
  · split <;> simp [*]

/-- An action that has ended was not given up. -/
theorem ending?_ne_actionUnfinished {id : Int64} {seconds : Nat} :
    action.ending? ≠ some (.error (.actionUnfinished id seconds)) := by
  unfold ending?
  split
  · simp
  · split <;> simp

end Action

/-! ## What is known and how much time has passed -/

section

variable (replies : Nat → TimedReply) (next elapsed : Nat) (action : Action)

/-- What is known of an action after `k` requests: what was known at first, or the last reply. -/
def told : Nat → Except ProviderFailure Action
  | 0 => .ok action
  | k + 1 => (replies (next + k)).reply.read readActionAnswer

/-- How many milliseconds have passed after `k` requests. -/
def moment : Nat → Nat
  | 0 => elapsed
  | k + 1 => moment k + pollInterval + (replies (next + k)).took

/-- After `k` requests another one is made. -/
def Waits (k : Nat) : Prop :=
  ∃ seen, told replies next action k = .ok seen ∧ seen.Unfinished ∧
    moment replies next elapsed k < actionLimit

end

section

variable {replies : Nat → TimedReply} {next elapsed : Nat} {action newer : Action}

theorem told_succ (h : (replies next).reply.read readActionAnswer = .ok newer) (k : Nat) :
    told replies next action (k + 1) = told replies (next + 1) newer k := by
  cases k with
  | zero => exact h
  | succ k => rw [told, told, Nat.add_assoc, Nat.add_comm 1 k]

theorem moment_succ (k : Nat) :
    moment replies next elapsed (k + 1) =
      moment replies (next + 1) (elapsed + pollInterval + (replies next).took) k := by
  induction k with
  | zero => rfl
  | succ k ih => rw [moment, ih, moment, Nat.add_assoc next, Nat.add_comm 1 k]

/-- Behind the first reply the wait is one for the action that it tells of. -/
theorem waits_succ (h : (replies next).reply.read readActionAnswer = .ok newer) (k : Nat) :
    Waits replies next elapsed action (k + 1) ↔
      Waits replies (next + 1) (elapsed + pollInterval + (replies next).took) newer k := by
  unfold Waits
  rw [told_succ h, moment_succ]

/-- Every request comes at least one pause behind the one before it. -/
theorem le_moment (k : Nat) : k * pollInterval ≤ moment replies next elapsed k := by
  induction k with
  | zero => simp
  | succ k ih =>
    rw [moment, Nat.succ_mul]
    omega

theorem told_ne_actionUnfinished {k : Nat} {id : Int64} {seconds : Nat} :
    told replies next action k ≠ .error (.actionUnfinished id seconds) := by
  cases k with
  | zero =>
    intro h
    cases h
  | succ k => exact Reply.read_ne_actionUnfinished

end

/-! ## What decides -/

/-- What is known at a moment ends the wait in some way. -/
inductive Decides : Except ProviderFailure Action → Nat → Except ProviderFailure Unit → Prop where
  /-- A finished action decides, however late it is told of. -/
  | finished {seen : Action} {ending : Except ProviderFailure Unit} {time : Nat}
      (h : seen.ending? = some ending) : Decides (.ok seen) time ending
  /-- The request failed. -/
  | failed (failure : ProviderFailure) (time : Nat) : Decides (.error failure) time (.error failure)
  /-- The time is over. -/
  | late {seen : Action} {time : Nat} (h : seen.Unfinished) (hlate : actionLimit ≤ time) :
      Decides (.ok seen) time (.error (.actionUnfinished seen.id (actionLimit / 1000)))

namespace Decides

variable {known : Except ProviderFailure Action} {time : Nat}
  {ending other : Except ProviderFailure Unit}

theorem eq (h : Decides known time ending) (h' : Decides known time other) : ending = other := by
  cases h with
  | finished hending =>
    cases h' with
    | finished hother => exact Option.some.inj (hending.symm.trans hother)
    | late hunfinished =>
      rw [Action.ending?_eq_none_iff.mpr hunfinished] at hending
      cases hending
  | failed =>
    cases h'
    rfl
  | late hunfinished =>
    cases h' with
    | finished hother =>
      rw [Action.ending?_eq_none_iff.mpr hunfinished] at hother
      cases hother
    | late => rfl

theorem ok_iff : Decides known time (.ok ()) ↔
    ∃ seen, known = .ok seen ∧ seen.status = "success" := by
  constructor
  · intro h
    cases h with
    | finished hending => exact ⟨_, rfl, Action.ending?_eq_ok_iff.mp hending⟩
  · rintro ⟨seen, rfl, hsuccess⟩
    exact .finished (Action.ending?_eq_ok_iff.mpr hsuccess)

theorem of_actionUnfinished {id : Int64} {seconds : Nat}
    (h : Decides known time (.error (.actionUnfinished id seconds)))
    (hknown : known ≠ .error (.actionUnfinished id seconds)) :
    ∃ seen, known = .ok seen ∧ seen.Unfinished ∧ actionLimit ≤ time ∧ seen.id = id ∧
      seconds = actionLimit / 1000 := by
  cases h with
  | finished hending => exact absurd hending Action.ending?_ne_actionUnfinished
  | failed => exact absurd rfl hknown
  | late hunfinished hlate => exact ⟨_, rfl, hunfinished, hlate, rfl, rfl⟩

/-- What decides leaves nothing to wait for. -/
theorem not_waits {replies : Nat → TimedReply} {next elapsed k : Nat} {action : Action}
    (h : Decides (told replies next action k) (moment replies next elapsed k) ending) :
    ¬Waits replies next elapsed action k := by
  rintro ⟨seen, hseen, hunfinished, htime⟩
  rw [hseen] at h
  cases h with
  | finished hending =>
    rw [Action.ending?_eq_none_iff.mpr hunfinished] at hending
    cases hending
  | late _ hlate => exact absurd htime (Nat.not_lt.mpr hlate)

end Decides

/-! ## The end of a wait -/

/-- A wait ends after `k` requests, each of them about the action as it was known then. -/
structure Ends (replies : Nat → TimedReply) (next elapsed : Nat) (action : Action) (k : Nat)
    (report : PollReport) : Prop where
  waits : ∀ j < k, Waits replies next elapsed action j
  decides : Decides (told replies next action k) (moment replies next elapsed k) report.result
  length : report.requests.length = k
  asked : ∀ j < k, ∀ seen, told replies next action j = .ok seen →
    report.requests[j]? = some (actionRequest seen.id)
  elapsed : report.elapsed = moment replies next elapsed k

section

variable {replies : Nat → TimedReply} {next elapsed : Nat} {action newer : Action}

/-- Nothing is asked if there is nothing to wait for. -/
theorem ends_zero {ending : Except ProviderFailure Unit} (h : Decides (.ok action) elapsed ending) :
    Ends replies next elapsed action 0 ⟨ending, [], elapsed⟩ where
  waits j hj := absurd hj (Nat.not_lt_zero j)
  decides := h
  length := rfl
  asked j hj := absurd hj (Nat.not_lt_zero j)
  elapsed := rfl

/-- A request that fails is the last one. -/
theorem ends_one {failure : ProviderFailure} (h : Waits replies next elapsed action 0)
    (hreply : (replies next).reply.read readActionAnswer = .error failure) :
    Ends replies next elapsed action 1
      ⟨.error failure, [actionRequest action.id],
        elapsed + pollInterval + (replies next).took⟩ := by
  have htold : told replies next action 1 = .error failure := hreply
  refine ⟨?_, ?_, rfl, ?_, rfl⟩
  · intro j hj
    obtain rfl : j = 0 := by omega
    exact h
  · rw [htold]
    exact .failed failure _
  · intro j hj seen hseen
    obtain rfl : j = 0 := by omega
    obtain rfl := Except.ok.inj hseen
    rfl

/-- A request that is answered comes in front of the rest of the wait. -/
theorem Ends.cons {k : Nat} {rest : PollReport} (h : Waits replies next elapsed action 0)
    (hreply : (replies next).reply.read readActionAnswer = .ok newer)
    (hrest : Ends replies (next + 1) (elapsed + pollInterval + (replies next).took) newer k rest) :
    Ends replies next elapsed action (k + 1)
      { rest with requests := actionRequest action.id :: rest.requests } := by
  refine ⟨?_, ?_, ?_, ?_, ?_⟩
  · intro j hj
    cases j with
    | zero => exact h
    | succ j => exact (waits_succ hreply j).mpr (hrest.waits j (by omega))
  · rw [told_succ hreply, moment_succ]
    exact hrest.decides
  · exact congrArg (· + 1) hrest.length
  · intro j hj seen hseen
    cases j with
    | zero =>
      obtain rfl := Except.ok.inj hseen
      rfl
    | succ j =>
      rw [told_succ hreply] at hseen
      exact hrest.asked j (by omega) seen hseen
  · rw [moment_succ]
    exact hrest.elapsed

end

/-- **A wait ends with the first look that decides.** -/
theorem exists_ends (replies : Nat → TimedReply) (next elapsed : Nat) (action : Action) :
    ∃ k, Ends replies next elapsed action k (poll replies next elapsed action) := by
  fun_induction poll replies next elapsed action with
  | case1 next elapsed action result hending => exact ⟨0, ends_zero (.finished hending)⟩
  | case2 next elapsed action hending hlt reply later failure hreply =>
    have hunfinished := Action.ending?_eq_none_iff.mp hending
    exact ⟨1, ends_one ⟨action, rfl, hunfinished, hlt⟩ hreply⟩
  | case3 next elapsed action hending hlt reply later newer hreply rest ih =>
    have hunfinished := Action.ending?_eq_none_iff.mp hending
    obtain ⟨k, hk⟩ := ih
    exact ⟨k + 1, hk.cons ⟨action, rfl, hunfinished, hlt⟩ hreply⟩
  | case4 next elapsed action hending hlt =>
    have hunfinished := Action.ending?_eq_none_iff.mp hending
    exact ⟨0, ends_zero (.late hunfinished (Nat.not_lt.mp hlt))⟩

namespace Ends

variable {replies : Nat → TimedReply} {next elapsed : Nat} {action : Action} {j k : Nat}
  {report : PollReport}

/-- There is only one end. -/
theorem eq (h : Ends replies next elapsed action k report)
    (hwaits : ∀ i < j, Waits replies next elapsed action i)
    (hstops : ¬Waits replies next elapsed action j) : j = k := by
  rcases Nat.lt_trichotomy j k with hlt | heq | hgt
  · exact absurd (h.waits j hlt) hstops
  · exact heq
  · exact absurd (hwaits k hgt) h.decides.not_waits

/-- The last request is made before the time is over, and the pauses add up to that. -/
theorem le (h : Ends replies next 0 action k report) : k ≤ 150 := by
  cases k with
  | zero => omega
  | succ k =>
    obtain ⟨-, -, -, htime⟩ := h.waits k (Nat.lt_succ_self k)
    have hpauses : k * pollInterval ≤ moment replies next 0 k := le_moment k
    simp only [pollInterval, actionLimit] at hpauses htime
    omega

end Ends

/--
**How waiting for an action ends**, whatever is replied and however long the replies take.

* At most 150 requests are made, each for the action as it was told of last.
* None is made if the action is finished at the start.
* The wait succeeds just when the first finished action that is told of has succeeded, and until
  then every request was answered and there was time left.
* What decides behind requests of this kind is what the wait ends with: an action that is told to
  be finished, at whatever time that is, a request that fails, or the end of the time.
* If the wait is given up, every action told of was unfinished and 300 seconds have passed.
-/
theorem poll_report (replies : Nat → TimedReply) (next : Nat) (action : Action) :
    ((poll replies next 0 action).requests.length ≤ 150 ∧
      ∀ j < (poll replies next 0 action).requests.length, ∀ seen,
        told replies next action j = .ok seen →
          (poll replies next 0 action).requests[j]? = some (actionRequest seen.id)) ∧
    (¬action.Unfinished → (poll replies next 0 action).requests = []) ∧
    ((poll replies next 0 action).result = .ok () ↔
      ∃ k seen, (∀ j < k, Waits replies next 0 action j) ∧
        told replies next action k = .ok seen ∧ seen.status = "success") ∧
    (∀ k ending, (∀ j < k, Waits replies next 0 action j) →
      Decides (told replies next action k) (moment replies next 0 k) ending →
        (poll replies next 0 action).result = ending ∧
        (poll replies next 0 action).requests.length = k ∧
        (poll replies next 0 action).elapsed = moment replies next 0 k) ∧
    ∀ id seconds, (poll replies next 0 action).result = .error (.actionUnfinished id seconds) →
      seconds = 300 ∧ 300000 ≤ (poll replies next 0 action).elapsed ∧
        (∀ j ≤ (poll replies next 0 action).requests.length, ∃ seen,
          told replies next action j = .ok seen ∧ seen.Unfinished) ∧
        ∃ seen, told replies next action (poll replies next 0 action).requests.length =
          .ok seen ∧ seen.id = id := by
  obtain ⟨k, h⟩ := exists_ends replies next 0 action
  rw [h.length, h.elapsed]
  refine ⟨⟨h.le, h.asked⟩, ?_, ?_, ?_, ?_⟩
  · intro hfinished
    obtain ⟨ending, hending⟩ := Option.ne_none_iff_exists'.mp
      (mt Action.ending?_eq_none_iff.mp hfinished)
    have hdecides : Decides (told replies next action 0) (moment replies next 0 0) ending :=
      .finished hending
    have hk : 0 = k := h.eq (fun i hi => absurd hi (Nat.not_lt_zero i)) hdecides.not_waits
    exact List.eq_nil_of_length_eq_zero (h.length.trans hk.symm)
  · constructor
    · intro hok
      obtain ⟨seen, hseen, hsuccess⟩ := Decides.ok_iff.mp (hok ▸ h.decides)
      exact ⟨k, seen, h.waits, hseen, hsuccess⟩
    · rintro ⟨j, seen, hwaits, hseen, hsuccess⟩
      have hdecides : Decides (told replies next action j) (moment replies next 0 j) (.ok ()) :=
        Decides.ok_iff.mpr ⟨seen, hseen, hsuccess⟩
      obtain rfl := h.eq hwaits hdecides.not_waits
      exact h.decides.eq hdecides
  · intro j ending hwaits hdecides
    obtain rfl := h.eq hwaits hdecides.not_waits
    exact ⟨h.decides.eq hdecides, rfl, rfl⟩
  · intro id seconds hresult
    obtain ⟨seen, hseen, hunfinished, hlate, hid, hseconds⟩ :=
      (hresult ▸ h.decides).of_actionUnfinished told_ne_actionUnfinished
    refine ⟨hseconds, hlate, ?_, seen, hseen, hid⟩
    intro j hj
    rcases Nat.lt_or_eq_of_le hj with hlt | rfl
    · obtain ⟨earlier, hearlier, hunfinished', -⟩ := h.waits j hlt
      exact ⟨earlier, hearlier, hunfinished'⟩
    · exact ⟨seen, hseen, hunfinished⟩

/-- While an action is told of as it was, and at once, only the pauses take time. -/
theorem told_of_repeated {replies : Nat → TimedReply} {next : Nat} {action : Action} {j k : Nat}
    (h : ∀ i < k, replies (next + i) = ⟨action.reply, 0⟩) (hj : j ≤ k) :
    told replies next action j = .ok action ∧ moment replies next 0 j = j * pollInterval := by
  induction j with
  | zero => exact ⟨rfl, (Nat.zero_mul pollInterval).symm⟩
  | succ j ih =>
    have hreply := h j (by omega)
    obtain ⟨-, hmoment⟩ := ih (by omega)
    constructor
    · rw [told, hreply]
      exact action.read_reply
    · rw [moment, hreply, hmoment, Nat.succ_mul]
      exact Nat.add_zero _

/-- So it is asked for again until the time is over. -/
theorem waits_of_repeated {replies : Nat → TimedReply} {next : Nat} {action : Action} {j k : Nat}
    (h : ∀ i < k, replies (next + i) = ⟨action.reply, 0⟩) (haction : action.Unfinished)
    (hj : j ≤ k) (hlt : j < 150) : Waits replies next 0 action j := by
  obtain ⟨htold, hmoment⟩ := told_of_repeated h hj
  refine ⟨action, htold, haction, ?_⟩
  rw [hmoment, pollInterval, actionLimit]
  omega

/-- An action that runs. -/
def running : Action := ⟨13, "running", none⟩

/-- The same action at its end. -/
def succeeded : Action := ⟨13, "success", none⟩

/-- The action runs, and the reply to the last look tells of its end when the time is over. -/
def lateReplies (n : Nat) : TimedReply :=
  if n < 150 then ⟨running.reply, 0⟩ else ⟨succeeded.reply, 7000⟩

/-- The action runs for ever. -/
def endlessReplies (_ : Nat) : TimedReply := ⟨running.reply, 0⟩

theorem poll_report_lateReplies :
    (∀ j < 150, Waits lateReplies 1 0 running j) ∧ moment lateReplies 1 0 150 = 307000 ∧
    Decides (told lateReplies 1 running 150) (moment lateReplies 1 0 150) (.ok ()) ∧
    (poll lateReplies 1 0 running).result = .ok () ∧
    (poll lateReplies 1 0 running).requests.length = 150 ∧
    ¬succeeded.Unfinished ∧ (poll lateReplies 1 0 succeeded).requests = [] ∧
    (poll endlessReplies 1 0 running).result = .error (.actionUnfinished 13 300) ∧
    300000 ≤ (poll endlessReplies 1 0 running).elapsed := by
  have hrunning : running.Unfinished := ⟨by decide +kernel, by decide +kernel⟩
  have hsucceeded : ¬succeeded.Unfinished := fun h => h.1 rfl
  have hlate : ∀ i < 149, lateReplies (1 + i) = ⟨running.reply, 0⟩ := by
    intro i hi
    rw [lateReplies, if_pos (by omega)]
  have hlast : (lateReplies (1 + 149)).took = 7000 := by
    rw [lateReplies, if_neg (by omega)]
  have hwaits : ∀ j < 150, Waits lateReplies 1 0 running j := fun j hj =>
    waits_of_repeated hlate hrunning (Nat.le_of_lt_succ hj) hj
  have hmoment : moment lateReplies 1 0 150 = 307000 := by
    rw [moment, (told_of_repeated hlate (Nat.le_refl 149)).2, hlast, pollInterval]
  have hdecides : Decides (told lateReplies 1 running 150) (moment lateReplies 1 0 150) (.ok ()) :=
    Decides.ok_iff.mpr ⟨succeeded, succeeded.read_reply, rfl⟩
  have hendless : ∀ i < 150, endlessReplies (1 + i) = ⟨running.reply, 0⟩ := fun _ _ => rfl
  obtain ⟨htold, htime⟩ := told_of_repeated hendless (Nat.le_refl 150)
  have hgivenUp : Decides (told endlessReplies 1 running 150) (moment endlessReplies 1 0 150)
      (.error (.actionUnfinished 13 300)) := by
    rw [htold, htime]
    exact .late hrunning (Nat.le_refl actionLimit)
  obtain ⟨-, -, -, hends, -⟩ := poll_report lateReplies 1 running
  obtain ⟨-, hnone, -⟩ := poll_report lateReplies 1 succeeded
  obtain ⟨-, -, -, hends', hunfinished⟩ := poll_report endlessReplies 1 running
  obtain ⟨hresult, hlength, -⟩ := hends 150 _ hwaits hdecides
  obtain ⟨hresult', -⟩ := hends' 150 _
    (fun j hj => waits_of_repeated hendless hrunning (Nat.le_of_lt hj) hj) hgivenUp
  exact ⟨hwaits, hmoment, hdecides, hresult, hlength, hsucceeded, hnone hsucceeded, hresult',
    (hunfinished _ _ hresult').2.1⟩

end Provisioner.Hetzner
