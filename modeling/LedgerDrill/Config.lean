import LedgerDrill.Duration
import LedgerDrill.Error

namespace LedgerDrill

inductive LogLevel
  | off
  | error
  | warn
  | info
  | debug
  | trace
deriving DecidableEq, Repr

namespace LogLevel

def all : List LogLevel := [off, error, warn, info, debug, trace]

def name : LogLevel → String
  | off => "OFF"
  | error => "ERROR"
  | warn => "WARN"
  | info => "INFO"
  | debug => "DEBUG"
  | trace => "TRACE"

def ofName? (name : String) : Option LogLevel :=
  all.find? fun level => level.name.toList == name.toList.map Char.toUpper

end LogLevel

structure Timings where
  warming : Duration := .ofSeconds 5
  duration : Duration := .ofSeconds 10
  recovery : Duration := .ofSeconds 30
  settle : Duration := .ofSeconds 20
  stopDelay : Duration := .ofSeconds 5
deriving DecidableEq

structure Config where
  nodeCount : Nat := 3
  accounts : Nat := 1000
  transferAmount : Int := 1
  expectedTotal : Int := 0
  failureBackoff : Duration := .ofMillis 500
  connectTimeout : Duration := .ofSeconds 1
  workerThreads : Nat := 1
  setupTries : Nat := 40
  setupDelay : Duration := .ofSeconds 1
  stopGrace : Duration := .ofSeconds 5
  timings : Timings := {}
  logLevel : LogLevel := .info
deriving DecidableEq

namespace Config

/-- The first fault of a configuration, in the order in which they are checked. -/
def fault? (c : Config) : Option ConfigFault :=
  if c.nodeCount = 0 then some .noNodes
  else if c.accounts < 3 then some (.tooFewAccounts c.accounts)
  else if c.workerThreads = 0 then some .noWorkerThreads
  else if c.setupTries = 0 then some .noSetupTries
  else none

def validate (c : Config) : Except ConfigFault Unit :=
  match c.fault? with
  | some fault => .error fault
  | none => .ok ()

end Config

end LedgerDrill
