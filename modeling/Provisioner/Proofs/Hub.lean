import Provisioner.Hub

/-!
# Handles stay good until they are woken

A handle that was taken for a machine either belongs to the present generation of that machine or
was woken (`Hub.Holds`). All calls of the hub keep it so, and a notification or a removal wakes all
handles that were taken for its machine before.
-/

namespace Provisioner.Hub

/-- A handle taken for a machine belongs to its present generation or was woken. -/
def Holds (hub : Hub) (id : MachineId) (wake : Handle) : Prop :=
  hub.isSignalled wake = true ∨ hub.generation? id = some wake.generation

/-! ## Generations -/

/-- Forgetting one machine keeps the generations of the others. -/
theorem lookup_without (hub : Hub) {id other : MachineId} (hne : other ≠ id) :
    (hub.without id).lookup other = hub.generation? other := by
  unfold without generation?
  induction hub.channels with
  | nil => rfl
  | cons channel channels ih =>
    obtain ⟨machine, generation⟩ := channel
    by_cases h : machine = id
    · have hother : (other == machine) = false := by
        rw [beq_eq_false_iff_ne, h]
        exact hne
      rw [List.filter_cons_of_neg (by simp [h]), ih, List.lookup_cons, hother]
    · rw [List.filter_cons_of_pos (by simp [h]), List.lookup_cons, List.lookup_cons, ih]

theorem generation?_wait_self (hub : Hub) (id : MachineId) :
    (hub.wait id).2.generation? id = some (hub.wait id).1.generation := by
  unfold wait
  cases h : hub.generation? id with
  | some generation => exact h
  | none => simp [generation?]

theorem generation?_wait {hub : Hub} {id other : MachineId} {generation : Nat}
    (h : hub.generation? other = some generation) :
    (hub.wait id).2.generation? other = some generation := by
  unfold wait
  cases hid : hub.generation? id with
  | some _ => exact h
  | none =>
    have hne : (other == id) = false := by
      rw [beq_eq_false_iff_ne]
      rintro rfl
      rw [hid] at h
      cases h
    show ((id, hub.next) :: hub.channels).lookup other = some generation
    rw [List.lookup_cons, hne]
    exact h

theorem generation?_notify (hub : Hub) {id other : MachineId} (hne : other ≠ id) :
    (hub.notify id).generation? other = hub.generation? other := by
  unfold notify
  cases hub.generation? id with
  | none => rfl
  | some _ =>
    show ((id, hub.next) :: hub.without id).lookup other = _
    rw [List.lookup_cons, beq_eq_false_iff_ne.mpr hne]
    exact lookup_without hub hne

theorem generation?_remove (hub : Hub) {id other : MachineId} (hne : other ≠ id) :
    (hub.remove id).generation? other = hub.generation? other := by
  unfold remove
  cases hub.generation? id with
  | none => rfl
  | some _ => exact lookup_without hub hne

/-! ## A handle that was woken stays so -/

theorem isSignalled_wait (hub : Hub) (id : MachineId) (wake : Handle) :
    (hub.wait id).2.isSignalled wake = hub.isSignalled wake := by
  unfold wait
  cases hub.generation? id <;> rfl

theorem isSignalled_notify {hub : Hub} {wake : Handle} (h : hub.isSignalled wake = true)
    (id : MachineId) : (hub.notify id).isSignalled wake = true := by
  unfold notify
  cases hub.generation? id with
  | none => exact h
  | some generation =>
    unfold isSignalled at h ⊢
    rw [List.contains_cons, h, Bool.or_true]

theorem isSignalled_remove {hub : Hub} {wake : Handle} (h : hub.isSignalled wake = true)
    (id : MachineId) : (hub.remove id).isSignalled wake = true := by
  unfold remove
  cases hub.generation? id with
  | none => exact h
  | some generation =>
    unfold isSignalled at h ⊢
    rw [List.contains_cons, h, Bool.or_true]

/-- All that a call does to the hub. -/
inductive Change (hub : Hub) : Hub → Prop where
  | same : Change hub hub
  | wait (id : MachineId) : Change hub (hub.wait id).2
  | notify (id : MachineId) : Change hub (hub.notify id)
  | remove (id : MachineId) : Change hub (hub.remove id)

theorem Change.isSignalled {hub hub' : Hub} (h : Change hub hub') {wake : Handle}
    (hwake : hub.isSignalled wake = true) : hub'.isSignalled wake = true := by
  cases h with
  | same => exact hwake
  | wait id => rw [isSignalled_wait, hwake]
  | notify id => exact isSignalled_notify hwake id
  | remove id => exact isSignalled_remove hwake id

namespace Holds

variable {hub : Hub} {id : MachineId} {wake : Handle}

/-- A handle that is taken holds. -/
theorem taken (hub : Hub) (id : MachineId) : (hub.wait id).2.Holds id (hub.wait id).1 :=
  Or.inr (generation?_wait_self hub id)

/-- **A notification wakes every handle that was taken for its machine.** -/
theorem isSignalled_notify (h : hub.Holds id wake) : (hub.notify id).isSignalled wake = true := by
  rcases h with h | h
  · exact Hub.isSignalled_notify h id
  · unfold notify
    rw [h]
    unfold isSignalled
    rw [List.contains_cons, beq_self_eq_true, Bool.true_or]

/-- **A removal wakes every handle that was taken for its machine.** -/
theorem isSignalled_remove (h : hub.Holds id wake) : (hub.remove id).isSignalled wake = true := by
  rcases h with h | h
  · exact Hub.isSignalled_remove h id
  · unfold remove
    rw [h]
    unfold isSignalled
    rw [List.contains_cons, beq_self_eq_true, Bool.true_or]

/-- Every call of the hub keeps a handle good. -/
theorem change {hub' : Hub} (h : hub.Holds id wake) (hchange : Change hub hub') :
    hub'.Holds id wake := by
  rcases h with h | h
  · exact Or.inl (hchange.isSignalled h)
  cases hchange with
  | same => exact Or.inr h
  | wait other => exact Or.inr (generation?_wait h)
  | notify other =>
    by_cases hid : id = other
    · subst hid
      exact Or.inl (isSignalled_notify (Or.inr h))
    · exact Or.inr (by rw [generation?_notify hub hid]; exact h)
  | remove other =>
    by_cases hid : id = other
    · subst hid
      exact Or.inl (isSignalled_remove (Or.inr h))
    · exact Or.inr (by rw [generation?_remove hub hid]; exact h)

end Holds

end Provisioner.Hub
