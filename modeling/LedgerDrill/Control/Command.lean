import LedgerDrill.Json.Reader
import LedgerDrill.Json.Strings

namespace LedgerDrill.Control

inductive Command
  | status
  | unknown (text : String)
deriving DecidableEq, Repr

namespace Command

def ofText (text : String) : Command := if text = "status" then status else unknown text

def text : Command → String
  | status => "status"
  | unknown text => text

def encode (text : String) : String := String.ofList (Json.writeString text.toList)

def decode (frame : String) : Except Json.Error Command :=
  (Json.readDocument Json.readString frame).map ofText

end Command

end LedgerDrill.Control
