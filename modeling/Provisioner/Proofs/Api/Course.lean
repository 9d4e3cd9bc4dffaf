import Provisioner.Api.Exchange

/-!
# The course of one request

A request that is carried out by itself, with nothing between its steps. What comes from outside,
such as the failures of statements, is given for each step. Every request comes to an answer
(`Task.exists_answered`), and what its steps keep holds at each of them (`Task.after_induction`).
-/

namespace Provisioner.Api.Task

/--
A request and the world after its first `n` steps, with nothing between them. What comes from
outside into the n-th step, from 0 on, is `outside n`.
-/
def after (setup : Setup) (outside : Nat → Outside) (t : Task) (w : World) : Nat → Task × World
  | 0 => (t, w)
  | n + 1 => (after setup outside t w n).1.step setup (outside n) (after setup outside t w n).2

variable {setup : Setup} {outside : Nat → Outside} {t t' : Task} {w w' : World} {n : Nat}

theorem after_succ (h : t.after setup outside w n = (t', w')) :
    t.after setup outside w (n + 1) = t'.step setup (outside n) w' := by
  rw [after, h]

/-- A request that was answered stays answered, and does nothing more. -/
theorem after_of_answered {answer : Answer}
    (h : t.after setup outside w n = (.answered answer, w')) (k : Nat) :
    t.after setup outside w (n + k) = (.answered answer, w') := by
  induction k with
  | zero => exact h
  | succ k ih => exact after_succ ih

/-- The first step, and then the others. -/
theorem after_step (setup : Setup) (outside : Nat → Outside) (t : Task) (w : World) (n : Nat) :
    t.after setup outside w (n + 1) =
      (t.step setup (outside 0) w).1.after setup (fun k => outside (k + 1))
        (t.step setup (outside 0) w).2 n := by
  induction n with
  | zero => rfl
  | succ n ih => rw [after, ih]; rfl

/-- **What every step keeps holds after any number of steps.** -/
theorem after_induction {P : Nat → Task × World → Prop} (hstart : P 0 (t, w))
    (hstep : ∀ n t w, P n (t, w) → P (n + 1) (t.step setup (outside n) w)) (n : Nat) :
    P n (t.after setup outside w n) := by
  induction n with
  | zero => exact hstart
  | succ n ih => exact hstep n _ _ ih

/-- **Every request comes to an answer.** -/
theorem exists_answered (setup : Setup) (outside : Nat → Outside) (t : Task) (w : World) :
    ∃ n answer w', t.after setup outside w n = (.answered answer, w') := by
  -- each step brings the request closer to its answer
  have hwf : WellFounded (Prod.Lex (· < ·) (· < ·) : Nat × Nat → Nat × Nat → Prop) :=
    (Prod.lex Nat.lt_wfRel Nat.lt_wfRel).wf
  induction hd : t.distance using hwf.induction generalizing outside t w with
  | _ d ih =>
    subst hd
    cases hanswer : t.answer? with
    | some answer =>
      cases t with
      | answered answer => exact ⟨0, answer, w, rfl⟩
      | _ => cases hanswer
    | none =>
      obtain ⟨n, answer, w', h⟩ := ih _ (t.distance_step_lt setup (outside 0) w hanswer)
        (fun k => outside (k + 1)) _ (t.step setup (outside 0) w).2 rfl
      exact ⟨n + 1, answer, w', (after_step setup outside t w n).trans h⟩

end Provisioner.Api.Task
