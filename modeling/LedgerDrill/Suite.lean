import LedgerDrill.Experiment

namespace LedgerDrill

structure Drill (τ : Type) where
  name : String
  injector : Injector τ
  expectation : Expectation

structure DrillReport where
  name : String
  result : Except ScenarioError Windows

structure SuiteReport where
  drills : List DrillReport
  teardown : Except Breach Unit

def DrillReport.passed (r : DrillReport) : Bool := r.result.isOk

def DrillReport.failure? (r : DrillReport) : Option String :=
  match r.result with
  | .error e => some (r.name ++ ": " ++ e.message)
  | .ok _ => none

namespace SuiteReport

def passed (r : SuiteReport) : Bool := r.teardown.isOk && r.drills.all (·.passed)

def failures (r : SuiteReport) : List String :=
  r.drills.filterMap (·.failure?) ++
    match r.teardown with
    | .error breach => ["teardown: " ++ breach.message]
    | .ok () => []

def line (name verdict : String) : String :=
  name ++ "".pushn ' ' (20 - name.length) ++ " " ++ verdict ++ "\n"

def summary (r : SuiteReport) : String :=
  String.join (r.drills.map fun drill => line drill.name (if drill.passed then "ok" else "FAILED")) ++
    match r.teardown with
    | .ok () => line "teardown" "ok"
    | .error breach => line "teardown" ("FAILED (" ++ breach.message ++ ")")

end SuiteReport

structure Suite (τ : Type) where
  drills : List (Drill τ) := []

namespace Suite

variable {τ : Type}

def names (s : Suite τ) : List String := s.drills.map (·.name)

def drillOf [FaultTarget τ] (name : String) (scenario : Scenario) (expectation : Expectation) :
    Drill τ :=
  { name, injector := scenario.injector, expectation }

/-- The drills for so many nodes. The last node is the victim; its link to the one before is cut
only if a majority does not need it. -/
def standard (τ : Type) [FaultTarget τ] (nodes : Nat) : Suite τ :=
  let victim := nodes - 1
  let peer := nodes - 2
  let normal := drillOf "normal_operations" .baseline .available
  let single :=
    [drillOf "node_partition" (.partition victim) (.unreachable [victim]),
     drillOf "node_restart" (.restart victim) (.unreachable [victim]),
     drillOf "node_crash" (.crash victim) (.unreachable [victim])]
  let edge := drillOf "edge_partition" (.edge peer victim) (.eitherSide peer victim)
  if nodes < 2 then ⟨[normal]⟩
  else if nodes < 3 then ⟨normal :: single⟩
  else ⟨normal :: single ++ [edge]⟩

def runDrill (controls : Controls τ) (timings : Timings) (nodes : Nat) (drill : Drill τ) :
    Action τ DrillReport := do
  let windows ← experiment controls timings drill.injector
  let result := match drill.expectation.verify windows nodes with
    | .ok () => .ok windows
    | .error breach => .error (.breach breach)
  return { name := drill.name, result }

def runDrills (controls : Controls τ) (timings : Timings) (nodes : Nat) :
    Bool → List (Drill τ) → Action τ (List DrillReport)
  | _, [] => return []
  | first, drill :: rest => do
    if !first then controls.pause timings.settle
    let report ← runDrill controls timings nodes drill
    let reports ← runDrills controls timings nodes false rest
    return report :: reports

def teardown (controls : Controls τ) (timings : Timings) : Action τ (Except Breach Unit) := do
  let _ ← controls.stop
  controls.pause timings.stopDelay
  if !(← controls.isIdentical) then return .error .dataMismatch
  let count ← controls.prepared
  if count != 0 then return .error (.preparedLeft count)
  return .ok ()

def run (s : Suite τ) (controls : Controls τ) (timings : Timings) (nodes : Nat) :
    Action τ SuiteReport := do
  let drills ← runDrills controls timings nodes true s.drills
  let teardown ← teardown controls timings
  return { drills, teardown }

end Suite

end LedgerDrill
