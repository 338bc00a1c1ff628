import LedgerDrill.Json.Reader

namespace LedgerDrill
open Std

inductive LoopKind
  | transfer
  | sumTotal
deriving DecidableEq, Repr

namespace LoopKind

def name : LoopKind → String
  | transfer => "transfer"
  | sumTotal => "sumtotal"

def names : List String := ["transfer", "sumtotal"]

def ofName? (name : String) : Option LoopKind :=
  if name = "transfer" then some transfer
  else if name = "sumtotal" then some sumTotal
  else none

def rank : LoopKind → Nat
  | transfer => 0
  | sumTotal => 1

instance : Ord LoopKind := ⟨compareOn rank⟩

instance : TransOrd LoopKind := inferInstanceAs (TransCmp (compareOn rank))

theorem rank_injective {a b : LoopKind} (h : a.rank = b.rank) : a = b := by
  cases a <;> cases b <;> simp_all [rank]

def read : Json.Reader LoopKind :=
  Json.readName fun name =>
    match ofName? name with
    | some kind => .ok kind
    | none => .error (.unknownVariant name names)

def write (kind : LoopKind) : List Char := Json.writeString kind.name.toList

end LoopKind

end LedgerDrill
