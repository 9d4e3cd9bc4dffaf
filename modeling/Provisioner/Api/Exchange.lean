import Provisioner.Api.Service

/-!
# One request after the other

An exchange carries requests through while nothing else happens. In each request the provider
follows a script, call by call. Every task comes to an answer (`Task.distance_step_lt`), so every
request gets a response.
-/

namespace Provisioner.Api

namespace Task

/-- How far a task is from its answer: the kind of its stage and what is left of a script. -/
def distance : Task → Nat × Nat
  | .resetting _ => (8, 0)
  | .creating _ _ | .clearing _ => (7, 0)
  | .recording _ _ | .waking _ | .repairing _ _ => (6, 0)
  | .announcing _ _ script => (5, script.length)
  | .starting _ _ | .finding _ => (4, 0)
  | .dismissing _ => (3, 0)
  | .erasing _ | .findingLog _ _ => (2, 0)
  | .answered _ => (0, 0)
  | _ => (1, 0)

/-- Every step of a task that has no answer yet brings it closer to one. -/
theorem distance_step_lt (t : Task) (setup : Setup) (o : Outside) (w : World)
    (h : t.answer? = none) :
    Prod.Lex (· < ·) (· < ·) (t.step setup o w).1.distance t.distance := by
  cases t with
  | answered answer => simp [answer?] at h
  | announcing row inputs script =>
    cases script with
    | done => simp [step, distance, Prod.lex_def]
    | write call next =>
      have := Script.length_next_lt call next (w.write row.id call o.fault).1.isOk
      simp [step, World.scriptStep, distance, Prod.lex_def, this]
    | notify next => simp [step, World.scriptStep, distance, Prod.lex_def, Script.length]
  | _ =>
    simp only [step, statement, withMachine]
    repeat' split
    all_goals simp [distance, fail, Prod.lex_def]

end Task

/-- What comes of one call of the provider. -/
inductive CallOutcome where
  /-- It does what it is asked; a machine that it makes gets this id. -/
  | success (id : MachineId)
  | failure (cause : ProviderFailure)
  /-- The call breaks down, and with it the handling of the request. -/
  | breakdown
deriving DecidableEq, Repr

/-- An entry of a provider's script. -/
structure CallEntry where
  /-- How long the call takes, in milliseconds. -/
  delay : Nat
  outcome : CallOutcome
deriving DecidableEq, Repr

/-- A call of the provider. -/
inductive ProviderCall where
  | create (name : String)
  | delete (id : MachineId)
deriving DecidableEq, Repr

/-- The call of the provider that a task makes in its next step. -/
def Task.call? : Task → Option ProviderCall
  | .creating name _ => some (.create name)
  | .dismissing id => some (.delete id)
  | _ => none

/-- A provider that follows a script, from its beginning in each request. -/
structure ScriptedProvider where
  script : List CallEntry
  /-- What all calls behind the script follow. -/
  further : CallEntry
  /-- The calls of the present request, last first. -/
  calls : List ProviderCall
deriving DecidableEq, Repr

namespace ScriptedProvider

/-- A provider that was not called yet. -/
def start (script : List CallEntry) (further : CallEntry) : ScriptedProvider :=
  ⟨script, further, []⟩

/-- The provider in front of a new request. -/
def restart (p : ScriptedProvider) : ScriptedProvider := { p with calls := [] }

/-- The entry that the next call follows. -/
def entry (p : ScriptedProvider) : CallEntry := (p.script[p.calls.length]?).getD p.further

/-- The provider after a call. -/
def record (p : ScriptedProvider) (call : ProviderCall) : ScriptedProvider :=
  { p with calls := call :: p.calls }

end ScriptedProvider

/-- What holds during all requests. -/
structure Conditions where
  setup : Setup
  /-- How many seconds a request may take. -/
  limit : Nat
  /-- Why no statement of the database succeeds, if so. -/
  fault : Option DatabaseFailure
  /-- The address of every machine that the provider makes. -/
  address : String
  /-- What will happen during a run that is started. -/
  run : Circumstances

/-- Thirty years in seconds, which stand for every limit that no clock can count. -/
def thirtyYears : Nat := 30 * 365 * 86400

/-- Whether a request that has taken some milliseconds has taken too long. -/
def Conditions.isOver (c : Conditions) (elapsed : Nat) : Bool :=
  (if c.limit ≤ Int64.maxValue.toInt.toNat then c.limit else thirtyYears) * 1000 ≤ elapsed

/-- The world, the provider and how many milliseconds a request has taken. -/
structure Exchange where
  world : World
  provider : ScriptedProvider
  elapsed : Nat

namespace Exchange

/-- What comes from outside into a step in which the provider fails. -/
def failure (c : Conditions) (cause : ProviderFailure) : Outside :=
  ⟨c.fault, ⟨.error cause, none⟩, ⟨.error cause, false⟩, c.run⟩

/-- What comes from outside into a step in which the provider does what it is asked. -/
def success (c : Conditions) (id : MachineId) : ProviderCall → Outside
  | .create name => ⟨c.fault, ⟨.ok ⟨id, name, c.address⟩, some id⟩, ⟨.ok (), false⟩, c.run⟩
  | .delete _ => .ofFault c.fault c.run

/-- The exchange after a step of a task. -/
def step (x : Exchange) (c : Conditions) (t : Task) (o : Outside) : Exchange :=
  { x with world := (t.step c.setup o x.world).2 }

/-- Carries a task through to its response. -/
def carry (x : Exchange) (c : Conditions) (t : Task) : Exchange × Response :=
  match _h : t.answer? with
  | some answer => (x, .ofAnswer answer)
  | none =>
    match t.call? with
    | none =>
      let o := Outside.ofFault c.fault c.run
      (x.step c t o).carry c (t.step c.setup o x.world).1
    | some call =>
      let provider := x.provider.record call
      let elapsed := x.elapsed + x.provider.entry.delay
      if c.isOver elapsed then ({ x with provider, elapsed }, .timedOut)
      else
        match x.provider.entry.outcome with
        | .breakdown => ({ x with provider, elapsed }, .brokenDown)
        | .failure cause =>
          let o := failure c cause
          ({ x.step c t o with provider, elapsed }).carry c (t.step c.setup o x.world).1
        | .success id =>
          let o := success c id call
          ({ x.step c t o with provider, elapsed }).carry c (t.step c.setup o x.world).1
termination_by t.distance
decreasing_by all_goals exact Task.distance_step_lt _ _ _ _ _h

/--
Carries a request through to its response as it is sent. A name and an id are generated for it in
case it gives none.
-/
def serve (x : Exchange) (c : Conditions) (cors : Cors) (request : Request)
    (newName newId : String) : Exchange × Response :=
  let x := { x with provider := x.provider.restart, elapsed := 0 }
  let (x, response) :=
    if c.isOver 0 then (x, .timedOut)
    else
      match Start.ofRequest request newName with
      | .response response => (x, response)
      | .task t => x.carry c t
  (x, response.complete cors request newId)

end Exchange

end Provisioner.Api
