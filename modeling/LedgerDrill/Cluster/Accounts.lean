import LedgerDrill.Json.Strings
import LedgerDrill.Sha256
import LedgerDrill.SortedMap

namespace LedgerDrill.Cluster

/-- A balance has 64 bits, and wraps around as it does where overflow is not checked. -/
abbrev Accounts := SortedMap Nat Int64

/-- An amount for a balance, which takes it modulo `2 ^ 64`. -/
structure Write where
  uid : Nat
  delta : Int
deriving DecidableEq, Repr

namespace Accounts

def seed (n : Nat) : Accounts where
  entries := (List.range (n + 1)).map fun uid => (uid, 0)
  ascending := List.pairwise_map.2
    (List.pairwise_lt_range.imp fun h => Nat.compare_eq_lt.2 h)

def total (accounts : Accounts) : Int := accounts.values.sum.toInt

def write (accounts : Accounts) (w : Write) : Accounts :=
  accounts.modify w.uid (· + .ofInt w.delta)

def apply (accounts : Accounts) (writes : List Write) : Accounts := writes.foldl write accounts

def rowText (uid : Nat) (balance : Int64) : List Char :=
  '(' :: Text.decimal uid ++ ',' :: ' ' :: Json.writeInt balance.toInt ++ [')', ',']

def text (accounts : Accounts) : List Char :=
  accounts.entries.flatMap fun (uid, balance) => rowText uid balance

def digest (accounts : Accounts) : String :=
  Sha256.hex (String.ofList accounts.text).toUTF8.toList

end Accounts

end LedgerDrill.Cluster
