import Mathlib.Data.Set.Card
import Provisioner.Proofs.Hub.History

/-!
# Which machines the hub knows

The hub has a generation for a machine as long as somebody has waited for it since it was last
removed (`Awaited`), so nothing is left in it for a machine that nobody waits for, and
notifications neither add nor drop a machine. A generation that is present was not signalled, and
it stays until its machine is notified or removed; the one behind it is a new one, which no machine
has had before (`generation?_after`).
-/

namespace Provisioner.Hub

/-! ## Machines with a generation -/

/-- The machines that have a generation. -/
def machines (hub : Hub) : List MachineId := hub.channels.map Prod.fst

theorem not_mem_machines_iff {hub : Hub} {id : MachineId} :
    id ∉ hub.machines ↔ hub.generation? id = none := by
  unfold machines generation?
  rw [List.lookup_eq_none_iff]
  simp only [List.mem_map, not_exists, not_and, bne_iff_ne]
  exact forall₂_congr fun channel _ => ne_comm

theorem mem_machines_iff {hub : Hub} {id : MachineId} :
    id ∈ hub.machines ↔ hub.generation? id ≠ none := by
  rw [← not_iff_not, not_mem_machines_iff, not_not]

theorem map_fst_without (hub : Hub) (id : MachineId) :
    (hub.without id).map Prod.fst = hub.machines.filter (· ≠ id) := by
  unfold without machines
  rw [List.filter_map]
  rfl

theorem machines_wait (hub : Hub) (id : MachineId) :
    (hub.wait id).2.machines = if id ∈ hub.machines then hub.machines else id :: hub.machines := by
  cases h : hub.generation? id with
  | some generation =>
    rw [wait_of_some h, if_pos (mem_machines_iff.mpr (by simp [h]))]
  | none =>
    rw [wait_of_none h, if_neg (not_mem_machines_iff.mpr h)]
    rfl

theorem machines_notify (hub : Hub) (id : MachineId) :
    (hub.notify id).machines =
      if id ∈ hub.machines then id :: hub.machines.filter (· ≠ id) else hub.machines := by
  cases h : hub.generation? id with
  | some generation =>
    rw [notify_of_some h, if_pos (mem_machines_iff.mpr (by simp [h])), ← map_fst_without]
    rfl
  | none => rw [notify_of_none h, if_neg (not_mem_machines_iff.mpr h)]

theorem machines_remove (hub : Hub) (id : MachineId) :
    (hub.remove id).machines = hub.machines.filter (· ≠ id) := by
  cases h : hub.generation? id with
  | some generation =>
    rw [remove_of_some h]
    exact map_fst_without hub id
  | none =>
    rw [remove_of_none h, List.filter_eq_self.mpr]
    intro machine hmachine
    rw [decide_eq_true_iff]
    rintro rfl
    exact not_mem_machines_iff.mpr h hmachine

/-- No machine has two generations. -/
theorem nodup_machines_call {desk : Desk} (h : desk.hub.machines.Nodup) (call : Call) :
    (desk.call call).hub.machines.Nodup := by
  cases call with
  | wait id =>
    show (desk.hub.wait id).2.machines.Nodup
    rw [machines_wait]
    split
    · exact h
    · next hid => exact List.nodup_cons.mpr ⟨hid, h⟩
  | clone n => exact h
  | notify id =>
    show (desk.hub.notify id).machines.Nodup
    rw [machines_notify]
    split
    · exact List.nodup_cons.mpr ⟨by simp, h.filter _⟩
    · exact h
  | remove id =>
    show (desk.hub.remove id).machines.Nodup
    rw [machines_remove]
    exact h.filter _

/-- A wait adds its machine, a removal drops it, and a notification does neither. -/
theorem mem_machines_call_iff (desk : Desk) (call : Call) (id : MachineId) :
    id ∈ (desk.call call).hub.machines ↔
      call = .wait id ∨ call ≠ .remove id ∧ id ∈ desk.hub.machines := by
  cases call with
  | wait other =>
    show id ∈ (desk.hub.wait other).2.machines ↔ _
    rw [machines_wait]
    grind
  | clone n => simp [Desk.call]
  | notify other =>
    show id ∈ (desk.hub.notify other).machines ↔ _
    rw [machines_notify]
    grind
  | remove other =>
    show id ∈ (desk.hub.remove other).machines ↔ _
    rw [machines_remove]
    grind

/-! ## Machines that somebody waits for -/

/-- Some wait for a machine was not followed by a removal of it. -/
def Awaited (calls : List Call) (id : MachineId) : Prop :=
  ∃ before behind, calls = before ++ .wait id :: behind ∧ .remove id ∉ behind

theorem awaited_concat_iff {calls : List Call} {call : Call} {id : MachineId} :
    Awaited (calls ++ [call]) id ↔ call = .wait id ∨ call ≠ .remove id ∧ Awaited calls id := by
  constructor
  · rintro ⟨before, behind, hsplit, hbehind⟩
    rcases List.eq_nil_or_concat behind with rfl | ⟨front, last, rfl⟩
    · exact .inl (List.singleton_inj.mp (List.append_inj' hsplit rfl).2)
    · rw [List.concat_eq_append] at hsplit hbehind
      rw [← List.cons_append, ← List.append_assoc] at hsplit
      obtain ⟨hcalls, hcall⟩ := List.append_inj' hsplit rfl
      obtain rfl := List.singleton_inj.mp hcall
      rw [List.mem_append, List.mem_singleton, not_or] at hbehind
      exact .inr ⟨Ne.symm hbehind.2, before, front, hcalls, hbehind.1⟩
  · rintro (rfl | ⟨hcall, before, behind, rfl, hbehind⟩)
    · exact ⟨calls, [], rfl, List.not_mem_nil⟩
    · refine ⟨before, behind ++ [call], by simp, ?_⟩
      rw [List.mem_append, List.mem_singleton, not_or]
      exact ⟨hbehind, Ne.symm hcall⟩

/-- **The machines with a generation are those that somebody waits for, each of them once.** -/
theorem machines_after (calls : List Call) :
    (Desk.after calls).hub.machines.Nodup ∧
      ∀ id, id ∈ (Desk.after calls).hub.machines ↔ Awaited calls id := by
  induction calls using List.reverseRecOn with
  | nil =>
    refine ⟨List.nodup_nil, fun id => ⟨fun h => absurd h List.not_mem_nil, ?_⟩⟩
    rintro ⟨before, behind, hsplit, -⟩
    simp at hsplit
  | append_singleton calls call ih =>
    obtain ⟨hnodup, hmem⟩ := ih
    rw [after_concat]
    refine ⟨nodup_machines_call hnodup call, fun id => ?_⟩
    rw [mem_machines_call_iff, awaited_concat_iff, hmem]

/-! ## Which generation a machine has -/

section

variable {desk : Desk} {call : Call} {calls later : List Call} {id : MachineId} {generation : Nat}

theorem next_le_call (desk : Desk) (call : Call) : desk.hub.next ≤ (desk.call call).hub.next := by
  cases call with
  | wait id =>
    show _ ≤ (desk.hub.wait id).2.next
    cases h : desk.hub.generation? id with
    | some _ => rw [wait_of_some h]
    | none =>
      rw [wait_of_none h]
      exact Nat.le_succ _
  | clone n => exact Nat.le_refl _
  | notify id =>
    show _ ≤ (desk.hub.notify id).next
    cases h : desk.hub.generation? id with
    | some _ =>
      rw [notify_of_some h]
      exact Nat.le_succ _
    | none => rw [notify_of_none h]
  | remove id =>
    show _ ≤ (desk.hub.remove id).next
    cases h : desk.hub.generation? id with
    | some _ => rw [remove_of_some h]
    | none => rw [remove_of_none h]

theorem next_le_after (calls later : List Call) :
    (Desk.after calls).hub.next ≤ (Desk.after (calls ++ later)).hub.next := by
  induction later using List.reverseRecOn with
  | nil => rw [List.append_nil]
  | append_singleton later call ih =>
    rw [← List.append_assoc, after_concat]
    exact ih.trans (next_le_call _ call)

theorem not_wakes_wait (other : MachineId) : ¬(Call.wait other).Wakes id := by
  simp [Call.Wakes]

theorem wakes_notify_iff {other : MachineId} : (Call.notify other).Wakes id ↔ other = id := by
  simp [Call.Wakes]

theorem wakes_remove_iff {other : MachineId} : (Call.remove other).Wakes id ↔ other = id := by
  simp [Call.Wakes]

/-- A call that does not wake those who wait for a machine leaves it its generation. -/
theorem generation?_call_of_not_wakes (h : desk.hub.generation? id = some generation)
    (hcall : ¬call.Wakes id) : (desk.call call).hub.generation? id = some generation := by
  cases call with
  | wait other => exact generation?_wait h
  | clone n => exact h
  | notify other =>
    have hne : id ≠ other := Ne.symm (mt wakes_notify_iff.mpr hcall)
    exact (generation?_notify desk.hub hne).trans h
  | remove other =>
    have hne : id ≠ other := Ne.symm (mt wakes_remove_iff.mpr hcall)
    exact (generation?_remove desk.hub hne).trans h

/-- A wait makes a generation only if there is none. -/
theorem generation?_of_wait {hub : Hub} {other : MachineId}
    (h : (hub.wait other).2.generation? id = some generation) :
    hub.generation? id = some generation ∨ generation = hub.next := by
  by_cases hid : id = other
  · subst hid
    rw [generation?_wait_self] at h
    cases hpresent : hub.generation? id with
    | some present =>
      rw [wait_of_some hpresent] at h
      exact .inl h
    | none =>
      rw [wait_of_none hpresent] at h
      exact .inr (Option.some.inj h).symm
  · rw [generation?_wait_of_ne hub hid] at h
    exact .inl h

/-- Behind a notification the machine has a new generation, if it has any. -/
theorem eq_next_of_notify {hub : Hub} (h : (hub.notify id).generation? id = some generation) :
    generation = hub.next := by
  cases hpresent : hub.generation? id with
  | some present =>
    rw [notify_of_some hpresent] at h
    have hnew : some hub.next = some generation := by simpa [generation?] using h
    exact (Option.some.inj hnew).symm
  | none =>
    rw [notify_of_none hpresent, hpresent] at h
    cases h

/-- The generation of a machine after a call is the one that it had, or a new one. -/
theorem generation?_call (h : (desk.call call).hub.generation? id = some generation) :
    desk.hub.generation? id = some generation ∧ ¬call.Wakes id ∨ desk.hub.next ≤ generation := by
  cases call with
  | wait other =>
    rcases generation?_of_wait h with hpresent | hnew
    · exact .inl ⟨hpresent, not_wakes_wait other⟩
    · exact .inr (Nat.le_of_eq hnew.symm)
  | clone n => exact .inl ⟨h, by simp [Call.Wakes]⟩
  | notify other =>
    by_cases hid : other = id
    · subst hid
      exact .inr (Nat.le_of_eq (eq_next_of_notify h).symm)
    · have hpresent := (generation?_notify desk.hub (Ne.symm hid)).symm.trans h
      exact .inl ⟨hpresent, mt wakes_notify_iff.mp hid⟩
  | remove other =>
    by_cases hid : other = id
    · subst hid
      exact absurd (h.symm.trans (generation?_remove_self desk.hub other)) (by simp)
    · have hpresent := (generation?_remove desk.hub (Ne.symm hid)).symm.trans h
      exact .inl ⟨hpresent, mt wakes_remove_iff.mp hid⟩

theorem generation?_after_of_not_wakes
    (h : (Desk.after calls).hub.generation? id = some generation)
    (hlater : ∀ call ∈ later, ¬call.Wakes id) :
    (Desk.after (calls ++ later)).hub.generation? id = some generation := by
  induction later using List.reverseRecOn with
  | nil => rwa [List.append_nil]
  | append_singleton later call ih =>
    rw [List.forall_mem_append, List.forall_mem_singleton] at hlater
    rw [← List.append_assoc, after_concat]
    exact generation?_call_of_not_wakes (ih hlater.1) hlater.2

/-- **After more calls a machine has the generation that it had, or one that is new since then.** -/
theorem generation?_after (h : (Desk.after (calls ++ later)).hub.generation? id = some generation) :
    (Desk.after calls).hub.generation? id = some generation ∧ (∀ call ∈ later, ¬call.Wakes id) ∨
      (Desk.after calls).hub.next ≤ generation := by
  induction later using List.reverseRecOn with
  | nil =>
    rw [List.append_nil] at h
    exact .inl ⟨h, List.forall_mem_nil _⟩
  | append_singleton later call ih =>
    rw [← List.append_assoc, after_concat] at h
    rcases generation?_call h with ⟨hbefore, hcall⟩ | hnew
    · refine (ih hbefore).imp_left fun ⟨hpresent, hlater⟩ => ⟨hpresent, ?_⟩
      rw [List.forall_mem_append, List.forall_mem_singleton]
      exact ⟨hlater, hcall⟩
    · exact .inr ((next_le_after calls later).trans hnew)

end

/--
**What the hub holds.** After any calls it has a generation for a machine just when some wait for
the machine was not followed by its removal, and as many generations as there are such machines. None
of them was signalled. The generations of two machines, now and after more calls, are the same only
if the machines are the same and none of these calls notified or removed it.
-/
theorem registry (calls : List Call) :
    (∀ id, (Desk.after calls).hub.generation? id ≠ none ↔ Awaited calls id) ∧
    (∀ id generation, (Desk.after calls).hub.generation? id = some generation →
      (Desk.after calls).hub.isSignalled ⟨generation⟩ = false) ∧
    (∀ later id other generation generation',
      (Desk.after calls).hub.generation? id = some generation →
      (Desk.after (calls ++ later)).hub.generation? other = some generation' →
        (generation = generation' ↔
          id = other ∧ ∀ call ∈ later, call ≠ .notify id ∧ call ≠ .remove id)) ∧
    {id | Awaited calls id}.encard = (Desk.after calls).hub.size := by
  obtain ⟨hhub, -⟩ := traced calls
  obtain ⟨hnodup, hmem⟩ := machines_after calls
  refine ⟨?_, ?_, ?_, ?_⟩
  · intro id
    rw [← mem_machines_iff, hmem]
  · intro id generation hpresent
    rw [Bool.eq_false_iff]
    exact fun hwoken => hhub.fresh hpresent (List.contains_iff_mem.mp hwoken)
  · intro later id other generation generation' hid hother
    constructor
    · rintro rfl
      rcases generation?_after hother with ⟨hpresent, hlater⟩ | hnew
      · obtain rfl := hhub.injective hid hpresent
        exact ⟨rfl, fun call hcall => not_or.mp (hlater call hcall)⟩
      · exact absurd (hhub.lt_next hid) (Nat.not_lt.mpr hnew)
    · rintro ⟨rfl, hlater⟩
      have hstays := generation?_after_of_not_wakes hid fun call hcall =>
        not_or.mpr (hlater call hcall)
      exact Option.some.inj (hstays.symm.trans hother)
  · have hset : {id | Awaited calls id} = ↑(Desk.after calls).hub.machines.toFinset := by
      ext id
      simp [hmem]
    rw [hset, Set.encard_coe_eq_coe_finsetCard, List.toFinset_card_of_nodup hnodup, machines,
      List.length_map]
    rfl

/-- The first machine was removed and waited for again, and a third one was never waited for. -/
theorem registry_mixedCalls :
    Awaited mixedCalls 1 ∧ ¬Awaited mixedCalls 3 ∧ {id | Awaited mixedCalls id}.encard = 2 ∧
    (∃ generation generation', (Desk.after mixedCalls).hub.generation? 1 = some generation ∧
      (Desk.after mixedCalls).hub.isSignalled ⟨generation⟩ = false ∧
      (Desk.after (mixedCalls ++ [.notify 1])).hub.generation? 1 = some generation' ∧
      generation ≠ generation') ∧
    ∃ generation, (Desk.after mixedCalls).hub.generation? 2 = some generation ∧
      (Desk.after (mixedCalls ++ [.notify 1])).hub.generation? 2 = some generation := by
  obtain ⟨hawaited, hfresh, hsame, hsize⟩ := registry mixedCalls
  have hfirst : (Desk.after mixedCalls).hub.generation? 1 = some 2 := by decide +kernel
  have hthird : (Desk.after mixedCalls).hub.generation? 3 = none := by decide +kernel
  have hnext : (Desk.after (mixedCalls ++ [.notify 1])).hub.generation? 1 = some 4 := by
    decide +kernel
  have hsecond : (Desk.after mixedCalls).hub.generation? 2 = some 3 := by decide +kernel
  have hkept : (Desk.after (mixedCalls ++ [.notify 1])).hub.generation? 2 = some 3 := by
    decide +kernel
  refine ⟨(hawaited 1).mp (by rw [hfirst]; decide), fun h => (hawaited 3).mpr h hthird, hsize,
    ⟨2, 4, hfirst, hfresh 1 2 hfirst, hnext, ?_⟩, 3, hsecond, hkept⟩
  intro heq
  have hlater := ((hsame [.notify 1] 1 1 2 4 hfirst hnext).mp heq).2
  exact (hlater (.notify 1) (List.mem_singleton_self _)).1 rfl

end Provisioner.Hub
