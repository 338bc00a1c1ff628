import LedgerDrill.Client
import LedgerDrill.Config.Document

namespace LedgerDrill

structure ExitReport where
  code : Nat
  stdout : String := ""
  stderr : String := ""
deriving DecidableEq, Repr

namespace CommandLine

abbrev ClusterClient := Client Cluster Cluster.Session Cluster.Waiting

def load : Option (String × Except FileFault ByteArray) → Except RunError Config
  | none => .ok {}
  | some (path, content) => (Config.ofFile path content).mapError .config

/-- By how much the waits of a rehearsed run may last too long, in nanoseconds. -/
def grain : Nat := 500000

def workplace (config : Config) (seed : Nat) :
    Workplace Cluster Cluster.Session Cluster.Waiting :=
  { shared := { store := .new { nodes := config.nodeCount } }, grain, dice := ⟨seed⟩ }

def runSuite : Action ClusterClient SuiteReport := do
  Client.launch
  Client.runSuite (.standard ClusterClient (← get).config.nodeCount)

def logLines (config : Config) (lines : List String) : String :=
  if config.logLevel = .off then "" else String.join (lines.map (· ++ "\n"))

def aborted (config : Config) (e : RunError) : ExitReport :=
  { code := 1, stderr := logLines config ["Experiment aborted: " ++ e.message] }

def run (config : Config) (seed : Nat) : ExitReport :=
  match (Client.new config (workplace config seed)).2 with
  | .error e => aborted config e
  | .ok client =>
    match (runSuite.run client).1 with
    | .error e => aborted config e
    | .ok report =>
      { code := if report.passed then 0 else 1
        stdout := report.summary
        stderr := logLines config report.failures }

def execute (file : Option (String × Except FileFault ByteArray)) (seed : Nat) : ExitReport :=
  match load file with
  | .error e => { code := 1, stderr := e.message ++ "\n" }
  | .ok config => run config seed

end CommandLine

end LedgerDrill
