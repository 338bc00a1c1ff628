import LedgerDrill.Json.Error

namespace LedgerDrill

/-- Nodes are counted from zero here and from one in messages. -/
inductive StoreError
  | connectFailed (node : Nat) (reason : String)
  | connectionClosed
  | query (text : String)
  | rowCount (uid rows : Nat)
  | inFailedTransaction
  | noTransaction
  | tooFewAccounts (accounts : Nat)
deriving DecidableEq, Repr

def StoreError.message : StoreError → String
  | .connectFailed node reason => "could not connect to node " ++ (node + 1).repr ++ ": " ++ reason
  | .connectionClosed => "server closed the connection unexpectedly"
  | .query text => text
  | .rowCount uid rows =>
    "update of account " ++ uid.repr ++ " affected " ++ rows.repr ++ " rows, expected 1"
  | .inFailedTransaction =>
    "current transaction is aborted, commands ignored until end of transaction block"
  | .noTransaction => "there is no transaction in progress"
  | .tooFewAccounts accounts =>
    "cannot transfer between " ++ accounts.repr ++ " accounts, at least 3 are needed"

inductive FileFault
  | missing
  | isDirectory
  | nameTooLong
  | nulInName
  | notText
deriving DecidableEq, Repr

def FileFault.message : FileFault → String
  | .missing => "No such file or directory (os error 2)"
  | .isDirectory => "Is a directory (os error 21)"
  | .nameTooLong => "File name too long (os error 36)"
  | .nulInName => "file name contained an unexpected NUL byte"
  | .notText => "stream did not contain valid UTF-8"

inductive ConfigFault
  | unreadable (path : String) (fault : FileFault)
  | malformed (error : Json.Error)
  | noNodes
  | tooFewAccounts (accounts : Nat)
  | noWorkerThreads
  | noSetupTries
  | noTries (name : String)
  | noNodesExposed
  | stated (text : String)
deriving DecidableEq, Repr

def ConfigFault.message : ConfigFault → String
  | .unreadable path fault => path ++ ": " ++ fault.message
  | .malformed error => error.message
  | .noNodes => "node_count must be at least 1"
  | .tooFewAccounts accounts => "n_accounts must be at least 3, got " ++ accounts.repr
  | .noWorkerThreads => "worker_threads must be at least 1"
  | .noSetupTries => "setup_tries must be at least 1"
  | .noTries name => name ++ " needs at least one try"
  | .noNodesExposed => "connector exposes no nodes"
  | .stated text => text

inductive RunError
  | setupExhausted (name : String) (tries : Nat) (source : StoreError)
  | channelClosed (reason : String)
  | malformedFrame (error : Json.Error)
  | notRunning
  | alreadyRunning
  | workerPanicked
  | injection (scenario reason : String)
  | config (fault : ConfigFault)
  | store (context : String) (source : StoreError)
deriving DecidableEq, Repr

def RunError.message : RunError → String
  | .setupExhausted name tries source =>
    name ++ " failed all " ++ tries.repr ++ " tries: " ++ source.message
  | .channelClosed reason => "control channel closed: " ++ reason
  | .malformedFrame error => "malformed control frame: " ++ error.message
  | .notRunning => "workload is not running"
  | .alreadyRunning => "workload is already running"
  | .workerPanicked => "worker thread panicked"
  | .injection scenario reason => "failure injection '" ++ scenario ++ "' failed: " ++ reason
  | .config fault => "invalid configuration: " ++ fault.message
  | .store context source => "store error during " ++ context ++ ": " ++ source.message

def RunError.source? : RunError → Option StoreError
  | .setupExhausted _ _ source => some source
  | .store _ source => some source
  | _ => none

def RunError.workerGone : RunError := .channelClosed "worker is gone"

def RunError.noReply : RunError := .channelClosed "no reply to status request"

inductive Breach
  | isolation (node violations : Nat)
  | noCommits (node : Nat)
  | unexpectedCommits (node : Nat)
  | missingNode (node : Nat)
  | dataMismatch
  | preparedLeft (count : Nat)
deriving DecidableEq, Repr

def Breach.message : Breach → String
  | .isolation node violations =>
    "Isolation failure: " ++ violations.repr ++ " violations on node " ++ node.repr
  | .noCommits node => "No commits during aggregation interval on node " ++ node.repr
  | .unexpectedCommits node =>
    "There are commits during aggregation interval on node " ++ node.repr
  | .missingNode node => "node " ++ node.repr ++ " missing from snapshot"
  | .dataMismatch => "Different data on nodes"
  | .preparedLeft count => "There are " ++ count.repr ++ " uncommitted prepared transactions"

inductive ScenarioError
  | run (error : RunError)
  | breach (breach : Breach)
deriving DecidableEq, Repr

def ScenarioError.message : ScenarioError → String
  | .run e => e.message
  | .breach b => b.message

end LedgerDrill
