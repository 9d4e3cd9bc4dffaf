/-!
# Planned failures

To try out what becomes of failures, the calls of a store can be made to fail by plan: all calls of
some name, or those with some numbers. The calls of each name are counted from one.

Plans serve to run examples only, and nothing is proved about them: where results speak of failures,
any statement may fail.
-/

namespace Provisioner

/-- Which calls of one name fail. -/
inductive FaultRule where
  | always
  | numbers (list : List Nat)
deriving DecidableEq, Repr

/-- Whether the n-th call fails. -/
def FaultRule.hits : FaultRule → Nat → Bool
  | always, _ => true
  | numbers list, n => list.contains n

/-- Which calls fail, and how many there were. -/
structure FaultPlan where
  rules : List (String × FaultRule)
  counts : List (String × Nat)
deriving DecidableEq, Repr

namespace FaultPlan

/-- A plan before any call. -/
def ofRules (rules : List (String × FaultRule)) : FaultPlan := ⟨rules, []⟩

/-- How many calls there were of some name. -/
def count (p : FaultPlan) (call : String) : Nat := (p.counts.lookup call).getD 0

/-- Whether the next call of some name fails, and the plan after it. -/
def next (p : FaultPlan) (call : String) : Bool × FaultPlan :=
  let n := p.count call + 1
  (((p.rules.lookup call).map (·.hits n)).getD false,
    { p with counts := (call, n) :: p.counts.filter (·.1 ≠ call) })

end FaultPlan

end Provisioner
