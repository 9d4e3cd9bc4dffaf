import Mathlib.Data.List.Forall2
import Mathlib.Data.List.Induction
import Provisioner.Proofs.Hub

/-!
# Which handles have been woken

A handle stems from one wait: that which took it, or that from which the handle it was copied from
stems. After any calls of the hub it has been woken just when one of the calls behind that wait was a
notification or a removal of the same machine (`Hub.isSignalled_iff`).

* `WellFormed`: the present generations are fresh, and no two machines share one. So a call for one
  machine cannot reach the handles of another.
* `Traced`: a handle that was not woken yet belongs to the present generation of its machine.
-/

namespace Provisioner.Hub

/-! ## Calls -/

/-- What can be asked of a hub and of the handles taken from it. -/
inductive Call where
  | wait (id : MachineId)
  /-- The n-th handle, from 0 on, is copied. -/
  | clone (n : Nat)
  | notify (id : MachineId)
  | remove (id : MachineId)
deriving DecidableEq, Repr

/-- A hub with the handles that were taken from it, first one first. -/
structure Desk where
  hub : Hub
  handles : List Handle

/-- The desk after a call. -/
def Desk.call (desk : Desk) : Call → Desk
  | .wait id => ⟨(desk.hub.wait id).2, desk.handles ++ [(desk.hub.wait id).1]⟩
  | .clone n => { desk with handles := desk.handles ++ desk.handles[n]?.toList }
  | .notify id => { desk with hub := desk.hub.notify id }
  | .remove id => { desk with hub := desk.hub.remove id }

/-- A new hub after some calls. -/
def Desk.after (calls : List Call) : Desk := calls.foldl Desk.call ⟨.empty, []⟩

/-- The wait that a handle stems from. -/
structure Origin where
  machine : MachineId
  /-- How many calls there were before the wait. -/
  moment : Nat
deriving DecidableEq, Repr

/-- The origins of the handles after one more call. -/
def Origin.call (origins : List Origin) : Call × Nat → List Origin
  | (.wait id, moment) => origins ++ [⟨id, moment⟩]
  | (.clone n, _) => origins ++ origins[n]?.toList
  | (.notify _, _) | (.remove _, _) => origins

/-- The origins of the handles that some calls take, first one first. -/
def origins (calls : List Call) : List Origin := calls.zipIdx.foldl Origin.call []

/-- Whether a call wakes those who wait for a machine. -/
def Call.Wakes (id : MachineId) (call : Call) : Prop := call = .notify id ∨ call = .remove id

@[simp] theorem after_concat (calls : List Call) (call : Call) :
    Desk.after (calls ++ [call]) = (Desk.after calls).call call := by
  simp [Desk.after]

@[simp] theorem origins_concat (calls : List Call) (call : Call) :
    origins (calls ++ [call]) = Origin.call (origins calls) (call, calls.length) := by
  simp [origins, List.zipIdx_append]

/-! ## Generations -/

section Generations

variable {hub : Hub} {id other : MachineId} {generation : Nat}

theorem wait_of_some (h : hub.generation? id = some generation) :
    hub.wait id = (⟨generation⟩, hub) := by
  unfold wait
  rw [h]

theorem wait_of_none (h : hub.generation? id = none) :
    hub.wait id =
      (⟨hub.next⟩, { hub with channels := (id, hub.next) :: hub.channels, next := hub.next + 1 }) := by
  unfold wait
  rw [h]

theorem notify_of_some (h : hub.generation? id = some generation) :
    hub.notify id =
      ⟨(id, hub.next) :: hub.without id, generation :: hub.signalled, hub.next + 1⟩ := by
  unfold notify
  rw [h]

theorem notify_of_none (h : hub.generation? id = none) : hub.notify id = hub := by
  unfold notify
  rw [h]

theorem remove_of_some (h : hub.generation? id = some generation) :
    hub.remove id = ⟨hub.without id, generation :: hub.signalled, hub.next⟩ := by
  unfold remove
  rw [h]

theorem remove_of_none (h : hub.generation? id = none) : hub.remove id = hub := by
  unfold remove
  rw [h]

theorem generation?_wait_of_ne (hub : Hub) (hne : other ≠ id) :
    (hub.wait id).2.generation? other = hub.generation? other := by
  cases h : hub.generation? id with
  | some _ => rw [wait_of_some h]
  | none =>
    rw [wait_of_none h]
    show ((id, hub.next) :: hub.channels).lookup other = _
    rw [List.lookup_cons, beq_eq_false_iff_ne.mpr hne]
    rfl

/-- A removal forgets the generation of its machine. -/
theorem generation?_remove_self (hub : Hub) (id : MachineId) :
    (hub.remove id).generation? id = none := by
  cases h : hub.generation? id with
  | none => rw [remove_of_none h, h]
  | some _ =>
    rw [remove_of_some h]
    show (hub.without id).lookup id = none
    unfold without
    rw [List.lookup_eq_none_iff]
    intro channel hchannel
    have hne : channel.1 ≠ id := of_decide_eq_true (List.mem_filter.mp hchannel).2
    exact bne_iff_ne.mpr (Ne.symm hne)

end Generations

/-- Every present generation is fresh, and belongs to one machine. -/
structure WellFormed (hub : Hub) : Prop where
  lt_next : ∀ {id generation}, hub.generation? id = some generation → generation < hub.next
  fresh : ∀ {id generation}, hub.generation? id = some generation → generation ∉ hub.signalled
  signalled_lt : ∀ generation ∈ hub.signalled, generation < hub.next
  injective : ∀ {id other generation}, hub.generation? id = some generation →
    hub.generation? other = some generation → id = other

namespace WellFormed

variable {hub : Hub}

theorem empty : WellFormed .empty := ⟨nofun, nofun, nofun, nofun⟩

/-- A machine gets a new generation, and others keep theirs. -/
theorem renew (h : hub.WellFormed) {hub' : Hub} (id : MachineId)
    (hself : hub'.generation? id = some hub.next)
    (hothers : ∀ other, other ≠ id → hub'.generation? other = hub.generation? other)
    (hsignalled : ∀ generation ∈ hub'.signalled,
      generation ∈ hub.signalled ∨ hub.generation? id = some generation)
    (hnext : hub'.next = hub.next + 1) : hub'.WellFormed := by
  have hcases : ∀ {other generation}, hub'.generation? other = some generation →
      other = id ∧ generation = hub.next ∨ other ≠ id ∧ hub.generation? other = some generation := by
    intro other generation hother
    by_cases hid : other = id
    · rw [hid, hself] at hother
      exact Or.inl ⟨hid, (Option.some.inj hother).symm⟩
    · rw [hothers other hid] at hother
      exact Or.inr ⟨hid, hother⟩
  have hold : ∀ generation ∈ hub'.signalled, generation < hub.next := by
    intro generation hgeneration
    rcases hsignalled generation hgeneration with hwoken | hpresent
    · exact h.signalled_lt generation hwoken
    · exact h.lt_next hpresent
  constructor
  · intro other generation hother
    rcases hcases hother with ⟨-, rfl⟩ | ⟨-, hother⟩
    · omega
    · have := h.lt_next hother
      omega
  · intro other generation hother hwoken
    rcases hcases hother with ⟨-, rfl⟩ | ⟨hne, hother⟩
    · have := hold _ hwoken
      omega
    · rcases hsignalled generation hwoken with hwoken | hpresent
      · exact h.fresh hother hwoken
      · exact hne (h.injective hother hpresent)
  · intro generation hgeneration
    have := hold generation hgeneration
    omega
  · intro one other generation hone hother
    rcases hcases hone with ⟨rfl, rfl⟩ | ⟨-, hone⟩
    · rcases hcases hother with ⟨rfl, -⟩ | ⟨-, hother⟩
      · rfl
      · have := h.lt_next hother
        omega
    · rcases hcases hother with ⟨-, rfl⟩ | ⟨-, hother⟩
      · have := h.lt_next hone
        omega
      · exact h.injective hone hother

theorem wait (h : hub.WellFormed) (id : MachineId) : (hub.wait id).2.WellFormed := by
  cases hid : hub.generation? id with
  | some generation =>
    rw [wait_of_some hid]
    exact h
  | none =>
    refine h.renew id ?_ (fun other hne => generation?_wait_of_ne hub hne) ?_ ?_
    · rw [generation?_wait_self, wait_of_none hid]
    · intro generation hgeneration
      rw [wait_of_none hid] at hgeneration
      exact Or.inl hgeneration
    · rw [wait_of_none hid]

theorem notify (h : hub.WellFormed) (id : MachineId) : (hub.notify id).WellFormed := by
  cases hid : hub.generation? id with
  | none =>
    rw [notify_of_none hid]
    exact h
  | some present =>
    refine h.renew id ?_ (fun other hne => generation?_notify hub hne) ?_ ?_
    · rw [notify_of_some hid]
      simp [generation?]
    · intro generation hgeneration
      rw [notify_of_some hid] at hgeneration
      rcases List.mem_cons.mp hgeneration with rfl | hgeneration
      · exact Or.inr hid
      · exact Or.inl hgeneration
    · rw [notify_of_some hid]

theorem remove (h : hub.WellFormed) (id : MachineId) : (hub.remove id).WellFormed := by
  cases hid : hub.generation? id with
  | none =>
    rw [remove_of_none hid]
    exact h
  | some present =>
    -- nothing is added, so that every generation that is left was there before
    have hkept : ∀ {other generation}, (hub.remove id).generation? other = some generation →
        other ≠ id ∧ hub.generation? other = some generation := by
      intro other generation hother
      have hne : other ≠ id := by
        rintro rfl
        rw [generation?_remove_self] at hother
        cases hother
      rw [generation?_remove hub hne] at hother
      exact ⟨hne, hother⟩
    have hsignalled : (hub.remove id).signalled = present :: hub.signalled := by
      rw [remove_of_some hid]
    have hnext : (hub.remove id).next = hub.next := by rw [remove_of_some hid]
    constructor
    · intro other generation hother
      rw [hnext]
      exact h.lt_next (hkept hother).2
    · intro other generation hother hwoken
      obtain ⟨hne, hother⟩ := hkept hother
      rw [hsignalled, List.mem_cons] at hwoken
      rcases hwoken with rfl | hwoken
      · exact hne (h.injective hother hid)
      · exact h.fresh hother hwoken
    · intro generation hgeneration
      rw [hsignalled, List.mem_cons] at hgeneration
      rw [hnext]
      rcases hgeneration with rfl | hgeneration
      · exact h.lt_next hid
      · exact h.signalled_lt generation hgeneration
    · intro one other generation hone hother
      exact h.injective (hkept hone).2 (hkept hother).2

end WellFormed

/-! ## Handles -/

namespace Holds

variable {hub : Hub} {id : MachineId} {wake : Handle}

/-- A handle that was not woken is not that of another machine. -/
theorem isSignalled_cons_iff (h : hub.Holds id wake) (hhub : hub.WellFormed) {other : MachineId}
    {generation : Nat} (hother : hub.generation? other = some generation) :
    (generation :: hub.signalled).contains wake.generation = true ↔
      hub.isSignalled wake = true ∨ other = id := by
  rw [List.contains_cons, Bool.or_eq_true, beq_iff_eq]
  constructor
  · rintro (hwake | hwake)
    · rcases h with h | h
      · exact Or.inl h
      · rw [hwake] at h
        exact Or.inr (hhub.injective hother h)
    · exact Or.inl hwake
  · rintro (hwake | rfl)
    · exact Or.inr hwake
    · rcases h with h | h
      · exact Or.inr h
      · rw [h] at hother
        exact Or.inl (Option.some.inj hother)

/-- A machine without a generation has only handles that were woken. -/
theorem isSignalled_of_none (h : hub.Holds id wake) (hid : hub.generation? id = none) :
    hub.isSignalled wake = true := by
  refine h.resolve_right ?_
  rw [hid]
  nofun

theorem isSignalled_notify_iff (h : hub.Holds id wake) (hhub : hub.WellFormed)
    (other : MachineId) :
    (hub.notify other).isSignalled wake = true ↔ hub.isSignalled wake = true ∨ other = id := by
  cases hother : hub.generation? other with
  | some generation =>
    rw [notify_of_some hother]
    exact h.isSignalled_cons_iff hhub hother
  | none =>
    rw [notify_of_none hother]
    refine ⟨Or.inl, ?_⟩
    rintro (hwake | rfl)
    · exact hwake
    · exact h.isSignalled_of_none hother

theorem isSignalled_remove_iff (h : hub.Holds id wake) (hhub : hub.WellFormed)
    (other : MachineId) :
    (hub.remove other).isSignalled wake = true ↔ hub.isSignalled wake = true ∨ other = id := by
  cases hother : hub.generation? other with
  | some generation =>
    rw [remove_of_some hother]
    exact h.isSignalled_cons_iff hhub hother
  | none =>
    rw [remove_of_none hother]
    refine ⟨Or.inl, ?_⟩
    rintro (hwake | rfl)
    · exact hwake
    · exact h.isSignalled_of_none hother

end Holds

/-- A call changes the hub in one of the known ways. -/
theorem change_call (desk : Desk) (call : Call) : desk.hub.Change (desk.call call).hub := by
  cases call with
  | wait id => exact .wait id
  | clone n => exact .same
  | notify id => exact .notify id
  | remove id => exact .remove id

theorem WellFormed.call {desk : Desk} (h : desk.hub.WellFormed) (call : Call) :
    (desk.call call).hub.WellFormed := by
  cases call with
  | wait id => exact h.wait id
  | clone n => exact h
  | notify id => exact h.notify id
  | remove id => exact h.remove id

/-- **A call wakes just the handles of the machine that it notifies or removes.** -/
theorem Holds.isSignalled_call_iff {desk : Desk} {id : MachineId} {wake : Handle}
    (h : desk.hub.Holds id wake) (hhub : desk.hub.WellFormed) (call : Call) :
    (desk.call call).hub.isSignalled wake = true ↔
      desk.hub.isSignalled wake = true ∨ call.Wakes id := by
  unfold Call.Wakes
  cases call with
  | wait other =>
    show (desk.hub.wait other).2.isSignalled wake = true ↔ _
    rw [isSignalled_wait]
    simp
  | clone n => simp [Desk.call]
  | notify other => simpa [Desk.call] using h.isSignalled_notify_iff hhub other
  | remove other => simpa [Desk.call] using h.isSignalled_remove_iff hhub other

/-! ## All calls -/

/-- A handle stems from some wait and was woken by the calls behind it. -/
structure Traced (calls : List Call) (hub : Hub) (wake : Handle) (origin : Origin) : Prop where
  waited : calls[origin.moment]? = some (.wait origin.machine)
  holds : hub.Holds origin.machine wake
  woken : hub.isSignalled wake = true ↔
    ∃ call ∈ calls.drop (origin.moment + 1), call.Wakes origin.machine

variable {calls : List Call} {desk : Desk} {wake : Handle} {origin : Origin}

theorem Traced.call (h : Traced calls desk.hub wake origin) (hhub : desk.hub.WellFormed)
    (call : Call) : Traced (calls ++ [call]) (desk.call call).hub wake origin := by
  obtain ⟨hlt, hwait⟩ := List.getElem?_eq_some_iff.mp h.waited
  refine ⟨?_, h.holds.change (change_call desk call), ?_⟩
  · rw [List.getElem?_append_left hlt]
    exact h.waited
  · rw [h.holds.isSignalled_call_iff hhub, h.woken, List.drop_append_of_le_length hlt]
    simp [or_and_right, exists_or]

/-- A handle that was just taken was not woken, since its generation is a present one. -/
theorem traced_wait (hhub : desk.hub.WellFormed) (calls : List Call) (id : MachineId) :
    Traced (calls ++ [.wait id]) (desk.call (.wait id)).hub (desk.hub.wait id).1
      ⟨id, calls.length⟩ := by
  have hpresent := generation?_wait_self desk.hub id
  have hfresh : ¬(desk.hub.wait id).2.isSignalled (desk.hub.wait id).1 = true := by
    intro hwoken
    exact (hhub.wait id).fresh hpresent (List.contains_iff_mem.mp hwoken)
  refine ⟨by simp, Holds.taken desk.hub id, ?_⟩
  rw [List.drop_eq_nil_of_le (by simp)]
  simpa [Desk.call] using hfresh

/-- **Every handle is traced back to its wait.** -/
theorem traced (calls : List Call) :
    (Desk.after calls).hub.WellFormed ∧
      List.Forall₂ (Traced calls (Desk.after calls).hub) (Desk.after calls).handles
        (origins calls) := by
  induction calls using List.reverseRecOn with
  | nil => exact ⟨.empty, .nil⟩
  | append_singleton calls call ih =>
    obtain ⟨hhub, hhandles⟩ := ih
    have hold : List.Forall₂ (Traced (calls ++ [call]) ((Desk.after calls).call call).hub)
        (Desk.after calls).handles (origins calls) :=
      hhandles.imp fun _ _ h => h.call hhub call
    rw [after_concat, origins_concat]
    refine ⟨hhub.call call, ?_⟩
    cases call with
    | wait id => exact List.rel_append hold (.cons (traced_wait hhub calls id) .nil)
    | clone n =>
      refine List.rel_append hold ?_
      -- a copy has the generation and the origin of the handle that it was made of
      have hlength := hold.length_eq
      rcases Nat.lt_or_ge n (Desk.after calls).handles.length with hn | hn
      · have hn' : n < (origins calls).length := hlength ▸ hn
        rw [List.getElem?_eq_getElem hn, List.getElem?_eq_getElem hn']
        exact .cons (hold.get hn hn') .nil
      · rw [List.getElem?_eq_none hn, List.getElem?_eq_none (hlength ▸ hn)]
        exact .nil
    | notify id => exact hold
    | remove id => exact hold

/-- The handles that were taken keep their places. -/
theorem exists_handles_after (calls later : List Call) :
    ∃ added, (Desk.after (calls ++ later)).handles = (Desk.after calls).handles ++ added := by
  induction later using List.reverseRecOn with
  | nil => exact ⟨[], by simp⟩
  | append_singleton later call ih =>
    obtain ⟨added, hadded⟩ := ih
    rw [← List.append_assoc, after_concat]
    cases call with
    | wait id => exact ⟨added ++ [_], by rw [← List.append_assoc, ← hadded]; rfl⟩
    | clone n => exact ⟨added ++ _, by rw [← List.append_assoc, ← hadded]; rfl⟩
    | notify id => exact ⟨added, hadded⟩
    | remove id => exact ⟨added, hadded⟩

/-- A handle that was woken stays so. -/
theorem isSignalled_after {calls : List Call} {wake : Handle}
    (h : (Desk.after calls).hub.isSignalled wake = true) (later : List Call) :
    (Desk.after (calls ++ later)).hub.isSignalled wake = true := by
  induction later using List.reverseRecOn with
  | nil => simpa using h
  | append_singleton later call ih =>
    rw [← List.append_assoc, after_concat]
    exact (change_call _ call).isSignalled ih

/--
**A handle has been woken just when a call behind its wait notified or removed its machine.** Every
handle stems from a wait, its own or that of the handle that it is a copy of. One more call wakes it
just when it notifies or removes that machine, and whatever is called later it stays woken.
-/
theorem isSignalled_iff {calls : List Call} {n : Nat} {handle : Handle}
    (h : (Desk.after calls).handles[n]? = some handle) :
    ∃ origin, (origins calls)[n]? = some origin ∧
      calls[origin.moment]? = some (.wait origin.machine) ∧
      ((Desk.after calls).hub.isSignalled handle = true ↔
        ∃ call ∈ calls.drop (origin.moment + 1),
          call = .notify origin.machine ∨ call = .remove origin.machine) ∧
      (∀ call, (Desk.after (calls ++ [call])).hub.isSignalled handle = true ↔
        (Desk.after calls).hub.isSignalled handle = true ∨
          call = .notify origin.machine ∨ call = .remove origin.machine) ∧
      ∀ later, (Desk.after (calls ++ later)).handles[n]? = some handle ∧
        ((Desk.after calls).hub.isSignalled handle = true →
          (Desk.after (calls ++ later)).hub.isSignalled handle = true) := by
  obtain ⟨hhub, hhandles⟩ := traced calls
  obtain ⟨hn, hhandle⟩ := List.getElem?_eq_some_iff.mp h
  have hn' : n < (origins calls).length := hhandles.length_eq ▸ hn
  have htraced := hhandles.get hn hn'
  simp only [List.get_eq_getElem, hhandle] at htraced
  refine ⟨(origins calls)[n], List.getElem?_eq_getElem hn', htraced.waited, htraced.woken, ?_, ?_⟩
  · intro call
    rw [after_concat]
    exact htraced.holds.isSignalled_call_iff hhub call
  · intro later
    refine ⟨?_, fun hwoken => isSignalled_after hwoken later⟩
    obtain ⟨added, hadded⟩ := exists_handles_after calls later
    rw [hadded, List.getElem?_append_left hn, h]

/--
Two machines: the first is removed and waited for again, and the second is notified before and after
its wait. The third handle is a copy of the second, and the last one of the fourth.
-/
def mixedCalls : List Call :=
  [.wait 1, .notify 2, .wait 2, .clone 1, .remove 1, .wait 1, .clone 3, .notify 2]

theorem isSignalled_iff_mixedCalls :
    (Desk.after mixedCalls).handles.map (Desk.after mixedCalls).hub.isSignalled =
      [true, true, true, false, false] ∧
    (∃ handle, (Desk.after mixedCalls).handles[2]? = some handle ∧
      (origins mixedCalls)[2]? = some ⟨2, 2⟩ ∧
      (∃ call ∈ mixedCalls.drop 3, call = .notify 2 ∨ call = .remove 2) ∧
      (Desk.after (mixedCalls ++ [.wait 1, .remove 2])).hub.isSignalled handle = true) ∧
    ∃ handle, (Desk.after mixedCalls).handles[4]? = some handle ∧
      (origins mixedCalls)[4]? = some ⟨1, 5⟩ ∧
      ¬(∃ call ∈ mixedCalls.drop 6, call = .notify 1 ∨ call = .remove 1) ∧
      (Desk.after (mixedCalls ++ [.notify 1])).hub.isSignalled handle = true := by
  have hthird : (Desk.after mixedCalls).handles[2]? = some _ := rfl
  have hlast : (Desk.after mixedCalls).handles[4]? = some _ := rfl
  obtain ⟨third, horigin, -, hwoken, -, hlater⟩ := isSignalled_iff hthird
  obtain ⟨last, horigin', -, hwoken', hcall, -⟩ := isSignalled_iff hlast
  obtain rfl : third = ⟨2, 2⟩ := Option.some.inj (horigin.symm.trans rfl)
  obtain rfl : last = ⟨1, 5⟩ := Option.some.inj (horigin'.symm.trans rfl)
  refine ⟨by decide +kernel, ⟨_, hthird, horigin, hwoken.mp (by decide +kernel), ?_⟩,
    ⟨_, hlast, horigin', ?_, (hcall _).mpr (Or.inr (Or.inl rfl))⟩⟩
  · exact (hlater _).2 (by decide +kernel)
  · exact mt hwoken'.mpr (by decide +kernel)

end Provisioner.Hub
