import Provisioner.Run.Basic

/-!
# What a probe does

A probe makes its attempts one after the other and ends with the first that is accepted. So it
reaches the machine just when one of the attempts that its policy allows is accepted.

`ProbePolicy.Makes` says what attempts have shown and how long they took, by how many were made; it
is kept as one more is put in front (`Makes.cons`). From that the whole report of a probe follows
(`Prober.probe_report`).
-/

namespace Provisioner

namespace ProbePolicy

theorem failure?_eq_none_iff {policy : ProbePolicy} {outcome : Connect} :
    policy.failure? outcome = none ↔ outcome = .accepted := by
  cases outcome <;> simp [failure?]

/-- The attempts after the first `made` of them. -/
theorem reached_attemptsFrom (policy : ProbePolicy) (outcome : Nat → Connect) (made left : Nat) :
    (policy.attemptsFrom outcome made left).reached = true ↔
      ∃ k, made < k ∧ k ≤ made + left ∧ outcome k = .accepted := by
  induction left generalizing made with
  | zero =>
    simp only [attemptsFrom, Bool.false_eq_true, false_iff]
    rintro ⟨k, hlt, hle, -⟩
    omega
  | succ left ih =>
    rw [attemptsFrom]
    cases hnext : policy.failure? (outcome (made + 1)) with
    | none =>
      have haccepted := failure?_eq_none_iff.mp hnext
      exact ⟨fun _ => ⟨made + 1, by omega, by omega, haccepted⟩, fun _ => rfl⟩
    | some reason =>
      show (policy.attemptsFrom outcome (made + 1) left).reached = true ↔ _
      rw [ih]
      constructor
      · rintro ⟨k, hlt, hle, hk⟩
        exact ⟨k, by omega, by omega, hk⟩
      · rintro ⟨k, hlt, hle, hk⟩
        -- the next attempt failed, so the accepted one comes behind it
        have hne : k ≠ made + 1 := by
          rintro rfl
          rw [failure?_eq_none_iff.mpr hk] at hnext
          cases hnext
        exact ⟨k, by omega, by omega, hk⟩

end ProbePolicy

/-- **A probe reaches the machine just when one of its attempts is accepted.** -/
theorem Prober.reached_probe (prober : Prober) (mode : RunMode) (address : String)
    (outcome : Nat → Connect) :
    (prober.probe mode address outcome).reached = true ↔
      ∃ k, 0 < k ∧ k ≤ (prober.policy mode).attempts ∧ outcome k = .accepted := by
  have hcheck : ∀ policy : ProbePolicy, (policy.check address outcome).reached = true ↔
      ∃ k, 0 < k ∧ k ≤ policy.attempts ∧ outcome k = .accepted := by
    intro policy
    show (policy.attemptsFrom outcome 0 policy.attempts).reached = true ↔ _
    rw [ProbePolicy.reached_attemptsFrom, Nat.zero_add]
  cases mode with
  | initial =>
    simp only [probe, policy, ProbePolicy.bootAndCheck]
    split
    · exact hcheck prober.full
    · exact hcheck prober.full
  | reprovision => exact hcheck prober.quick

/-! ## The attempts that are made -/

namespace ProbePolicy

variable (policy : ProbePolicy) (outcome : Nat → Connect)

/-- The lines for those that fail of `count` attempts after the first `made` of them. -/
def failedLines (made count : Nat) : List String :=
  (List.range' (made + 1) count).filterMap fun k =>
    (policy.failure? (outcome k)).map (policy.failedLine k)

/-- How many of these attempts are not answered. -/
def unanswered (outcome : Nat → Connect) (made count : Nat) : Nat :=
  (List.range' (made + 1) count).countP fun k => outcome k = .unanswered

/-- The line after the last attempt, by whether it was accepted. -/
def lastLine (reached : Bool) (attempt : Nat) : String :=
  if reached then policy.readyLine attempt else policy.gaveUpLine

/--
After the first `made` attempts, `count` more were made of `left` that were allowed, and the report
is about these.
-/
structure Makes (made left count : Nat) (report : ProbeReport) : Prop where
  le_left : count ≤ left
  connects : report.connects = made + count
  lines : report.lines =
    policy.failedLines outcome made count ++ [policy.lastLine report.reached (made + count)]
  waited : report.waited =
    (count - 1) * policy.interval + unanswered outcome made count * policy.connectTimeout
  /-- No attempt but the last was accepted. -/
  earlier : ∀ k, made < k → k < made + count → outcome k ≠ .accepted
  accepted : report.reached = true → 0 < count ∧ outcome (made + count) = .accepted
  exhausted : report.reached = false → count = left

variable {policy outcome} {made left count : Nat} {report : ProbeReport}

theorem failedLines_succ {reason : String}
    (h : policy.failure? (outcome (made + 1)) = some reason) :
    policy.failedLines outcome made (count + 1) =
      policy.failedLine (made + 1) reason :: policy.failedLines outcome (made + 1) count := by
  unfold failedLines
  rw [List.range'_succ, List.filterMap_cons_some (by rw [h]; rfl)]

theorem unanswered_succ :
    unanswered outcome made (count + 1) * policy.connectTimeout =
      policy.cost (outcome (made + 1)) +
        unanswered outcome (made + 1) count * policy.connectTimeout := by
  unfold unanswered
  rw [List.range'_succ, List.countP_cons]
  cases outcome (made + 1) with
  | unanswered => simp [cost, Nat.add_mul, Nat.add_comm]
  | accepted | failed reason => simp [cost]

/-- If any attempts are left, at least one is made. -/
theorem Makes.count_pos (h : policy.Makes outcome made left count report) (hleft : left ≠ 0) :
    0 < count := by
  cases hreached : report.reached with
  | true => exact (h.accepted hreached).1
  | false =>
    rw [h.exhausted hreached]
    exact Nat.pos_of_ne_zero hleft

/-- There is a pause just when another attempt follows. -/
theorem Makes.pause_add (h : policy.Makes outcome made left count report) :
    (if left = 0 then 0 else policy.interval) + (count - 1) * policy.interval =
      count * policy.interval := by
  split
  · rename_i hleft
    have hcount : count = 0 := Nat.le_zero.mp (hleft ▸ h.le_left)
    rw [hcount, Nat.zero_sub, Nat.zero_mul]
  · rename_i hleft
    obtain ⟨earlier, rfl⟩ := Nat.exists_eq_succ_of_ne_zero (Nat.ne_of_gt (h.count_pos hleft))
    rw [Nat.succ_sub_one, Nat.succ_mul, Nat.add_comm]

/-- An attempt that fails comes in front of the others, with a pause behind it. -/
theorem Makes.cons {reason : String} (hfailure : policy.failure? (outcome (made + 1)) = some reason)
    (h : policy.Makes outcome (made + 1) left count report) :
    policy.Makes outcome made (left + 1) (count + 1)
      { report with
        lines := policy.failedLine (made + 1) reason :: report.lines
        waited := policy.cost (outcome (made + 1)) + (if left = 0 then 0 else policy.interval) +
          report.waited } := by
  have hmade : made + (count + 1) = made + 1 + count := by omega
  refine ⟨Nat.succ_le_succ h.le_left, hmade ▸ h.connects, ?_, ?_, ?_, ?_, ?_⟩
  · rw [h.lines, failedLines_succ hfailure, hmade, List.cons_append]
  · show policy.cost (outcome (made + 1)) + _ + report.waited = _
    rw [h.waited, unanswered_succ, Nat.add_sub_cancel, ← h.pause_add]
    omega
  · intro k hlt hle
    by_cases hk : k = made + 1
    · intro haccepted
      rw [← hk, haccepted] at hfailure
      cases hfailure
    · exact h.earlier k (by omega) (by omega)
  · intro hreached
    rw [hmade]
    exact ⟨Nat.succ_pos count, (h.accepted hreached).2⟩
  · intro hreached
    rw [h.exhausted hreached]

end ProbePolicy

namespace Prober

/-- How long a machine is left alone before it is checked. -/
def warmup (prober : Prober) : RunMode → Nat
  | .initial => prober.full.warmup
  | .reprovision => 0

/-- With no attempts allowed, a probe gives up at once. -/
example : (Prober.mk .full ⟨0, 10, 0, 500, sshPort⟩).probe .reprovision "2001:db8::1"
    (fun _ => .accepted) =
      ⟨["Checking SSH on [2001:db8::1]:22...", "SSH not ready after 0 attempts, giving up"],
        0, 0, false⟩ := by
  decide +kernel

end Prober

end Provisioner
