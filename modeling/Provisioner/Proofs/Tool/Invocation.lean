import Provisioner.Proofs.Json.Printing
import Provisioner.Tool.Report

/-!
# No inputs keep the configuration tool from being started

The inputs are handed over as one argument, in which control characters are escaped. What is wrong
with an invocation is therefore wrong with it for any inputs.
-/

namespace Provisioner

theorem plain_presentMember {depth : Nat} (name : String) (value : Option String) :
    ∀ m ∈ presentMember name value, m.2.Plain depth := by
  unfold presentMember
  split
  · next text _ => exact List.forall_mem_singleton.mpr (.text text)
  · exact List.forall_mem_nil _

theorem Channel.plain_parameters (c : Channel) : c.parameters.Plain 1 := by
  refine .record _ ?_
  simp only [List.forall_mem_append]
  exact ⟨⟨⟨plain_presentMember _ _, plain_presentMember _ _⟩, plain_presentMember _ _⟩,
    List.forall_mem_singleton.mpr (.text c.kind)⟩

namespace Inputs

variable {x : Inputs}

theorem plain_parameterMembers (x : Inputs) : ∀ m ∈ x.parameterMembers, m.2.Plain 2 := by
  simp only [parameterMembers, List.forall_mem_append]
  refine ⟨⟨⟨⟨⟨plain_presentMember _ _, ?_⟩, ?_⟩, plain_presentMember _ _⟩,
    plain_presentMember _ _⟩, plain_presentMember _ _⟩
  -- the channels and the access key are in arrays
  · split
    · exact List.forall_mem_nil _
    · refine List.forall_mem_singleton.mpr (.array _ ?_)
      intro item hitem
      obtain ⟨c, -, rfl⟩ := List.mem_map.mp hitem
      exact c.plain_parameters
  · split
    · next key _ =>
      refine List.forall_mem_singleton.mpr (.array _ ?_)
      exact List.forall_mem_singleton.mpr (.text key)
    · exact List.forall_mem_nil _

theorem plain_parameters {parameters : Json.Value} (h : x.parameters = some parameters) :
    parameters.Plain 3 := by
  unfold Inputs.parameters at h
  split at h
  · cases h
  · cases h
    exact .record _ x.plain_parameterMembers

end Inputs

namespace Tool

theorem holdsNul_render {depth : Nat} {v : Json.Value} (h : v.Plain depth) :
    holdsNul v.render = false := by
  rw [holdsNul, Json.Value.render, String.toList_ofList, List.contains_eq_mem,
    decide_eq_false_iff_not]
  intro hmem
  exact absurd (h.printable _ hmem) (by decide)

theorem any_holdsNul_inputArguments (x : Inputs) : (inputArguments x).any holdsNul = false := by
  unfold inputArguments
  cases hparameters : x.parameters with
  | none => rfl
  | some parameters =>
    simp only [List.any_cons, List.any_nil, Bool.or_false,
      holdsNul_render (Inputs.plain_parameters hparameters)]
    decide

/-- **Whether the tool can be started does not hang on the inputs.** -/
theorem fault?_invocation (settings : Settings) (path : String) (x x' : Inputs) :
    (invocation settings path x).fault? = (invocation settings path x').fault? := by
  unfold Invocation.fault? invocation
  simp only [List.any_append, any_holdsNul_inputArguments]

theorem Attempt.started_congr (a : Attempt) (settings : Settings) (path : String)
    (x x' : Inputs) : a.started settings path x = a.started settings path x' := by
  unfold started
  rw [fault?_invocation settings path x x']

end Tool

end Provisioner
