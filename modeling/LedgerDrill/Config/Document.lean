import LedgerDrill.Config
import LedgerDrill.Duration.Text
import LedgerDrill.Json.Skip
import LedgerDrill.Json.Strings

namespace LedgerDrill
open Json (writeInt writeMember writeObject)
open Text (decimal)

namespace LogLevel

def read : Json.Reader LogLevel :=
  Json.readName fun name =>
    match ofName? name with
    | some level => .ok level
    | none => .error (.unknownVariant name (all.map LogLevel.name))

def write (level : LogLevel) : List Char := Json.writeString level.name.toList

end LogLevel

structure Field (α : Type) where
  name : String
  read : α → Json.Reader α
  write : α → List Char

def Field.of {α β : Type} (name : String) (reader : Json.Reader β) (set : α → β → α)
    (write : α → List Char) : Field α where
  name
  read record text := do
    let (value, rest) ← reader text
    return (set record value, rest)
  write

namespace Field

variable {α : Type}

def readMember (fields : List (Field α)) : Json.Member (α × List String) :=
  fun (record, given) name text =>
    match fields.find? fun field => field.name == name with
    | none => do return ((record, given), ← Json.skipMember text)
    | some field => do
      if given.contains name then throw (.duplicateField name)
      let (record, rest) ← field.read record (← Json.readColon text)
      return ((record, name :: given), rest)

def readPlaces : List (Field α) → Bool → α → Json.Reader α
  | [], _, record, text => .ok (record, text)
  | field :: rest, first, record, text => do
    match ← Json.nextElement first text with
    | none => return (record, text)
    | some text =>
      let (record, text) ← field.read record text
      readPlaces rest false record text

def readRecord (expected : String) (fields : List (Field α)) (default : α) : Json.Reader α :=
  Json.readRecord expected (readPlaces fields true default) fun text => do
    let ((record, _), rest) ← Json.readObject (readMember fields) (default, []) text
    return (record, rest)

def writeRecord (fields : List (Field α)) (record : α) : List Char :=
  writeObject (fields.map fun field => writeMember field.name (field.write record))

end Field

namespace Timings

def fields : List (Field Timings) :=
  [.of "warming" Duration.read (fun t warming => { t with warming }) (·.warming.write),
   .of "duration" Duration.read (fun t duration => { t with duration }) (·.duration.write),
   .of "recovery" Duration.read (fun t recovery => { t with recovery }) (·.recovery.write),
   .of "settle" Duration.read (fun t settle => { t with settle }) (·.settle.write),
   .of "stop_delay" Duration.read (fun t stopDelay => { t with stopDelay }) (·.stopDelay.write)]

def read : Json.Reader Timings := Field.readRecord "struct ExperimentTimings" fields {}

def write (t : Timings) : List Char := Field.writeRecord fields t

end Timings

namespace Config

def readSize : Json.Reader Nat := Json.readNatural wordBound "usize"

def readAmount : Json.Reader Int := Json.readInteger (-signedBound) (signedBound - 1) "i64"

def fields : List (Field Config) :=
  [.of "node_count" readSize (fun c nodeCount => { c with nodeCount }) (decimal ·.nodeCount),
   .of "n_accounts" (Json.readNatural 4294967296 "u32") (fun c accounts => { c with accounts })
     (decimal ·.accounts),
   .of "transfer_amount" readAmount (fun c transferAmount => { c with transferAmount })
     (writeInt ·.transferAmount),
   .of "expected_total" readAmount (fun c expectedTotal => { c with expectedTotal })
     (writeInt ·.expectedTotal),
   .of "failure_backoff" Duration.read (fun c failureBackoff => { c with failureBackoff })
     (·.failureBackoff.write),
   .of "connect_timeout" Duration.read (fun c connectTimeout => { c with connectTimeout })
     (·.connectTimeout.write),
   .of "worker_threads" readSize (fun c workerThreads => { c with workerThreads })
     (decimal ·.workerThreads),
   .of "setup_tries" readSize (fun c setupTries => { c with setupTries }) (decimal ·.setupTries),
   .of "setup_delay" Duration.read (fun c setupDelay => { c with setupDelay })
     (·.setupDelay.write),
   .of "stop_grace" Duration.read (fun c stopGrace => { c with stopGrace }) (·.stopGrace.write),
   .of "timings" Timings.read (fun c timings => { c with timings }) (·.timings.write),
   .of "log_level" LogLevel.read (fun c logLevel => { c with logLevel }) (·.logLevel.write)]

def read : Json.Reader Config := Field.readRecord "struct HarnessConfig" fields {}

def write (c : Config) : String := String.ofList (Field.writeRecord fields c)

def ofText (text : String) : Except ConfigFault Config := do
  let config ← (Json.readDocument read text).mapError .malformed
  config.validate
  return config

def ofFile (path : String) (content : Except FileFault ByteArray) : Except ConfigFault Config :=
  match content with
  | .error fault => .error (.unreadable path fault)
  | .ok bytes =>
    match String.fromUTF8? bytes with
    | none => .error (.unreadable path .notText)
    | some text => ofText text

end Config

end LedgerDrill
