namespace LedgerDrill.Cluster

def link (a b : Nat) : Nat × Nat := if a ≤ b then (a, b) else (b, a)

structure Links where
  cuts : List (Nat × Nat) := []
deriving DecidableEq, Repr

namespace Links

def connected (l : Links) (a b : Nat) : Bool := a == b || !l.cuts.contains (link a b)

def cut (l : Links) (a b : Nat) : Links :=
  if a = b || l.cuts.contains (link a b) then l else ⟨link a b :: l.cuts⟩

def restore (l : Links) (a b : Nat) : Links := ⟨l.cuts.filter (· != link a b)⟩

def isolate (l : Links) (size node : Nat) : Links := (List.range size).foldl (cut · node ·) l

def heal (l : Links) (size node : Nat) : Links := (List.range size).foldl (restore · node ·) l

def isPartitioned (l : Links) : Bool := !l.cuts.isEmpty

end Links

end LedgerDrill.Cluster
