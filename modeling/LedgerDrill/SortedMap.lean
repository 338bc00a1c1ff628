namespace LedgerDrill
open Std

structure SortedMap (κ ν : Type) [Ord κ] where
  entries : List (κ × ν)
  ascending : entries.Pairwise fun a b => compare a.1 b.1 = .lt

namespace SortedMap

variable {κ ν : Type} [Ord κ]

instance [DecidableEq κ] [DecidableEq ν] : DecidableEq (SortedMap κ ν) := fun a b =>
  if h : a.entries = b.entries then isTrue (by cases a; cases b; simp_all)
  else isFalse (by rintro rfl; exact h rfl)

def empty : SortedMap κ ν := ⟨[], .nil⟩

instance : EmptyCollection (SortedMap κ ν) := ⟨empty⟩

instance : Inhabited (SortedMap κ ν) := ⟨empty⟩

def keys (m : SortedMap κ ν) : List κ := m.entries.map (·.1)

def values (m : SortedMap κ ν) : List ν := m.entries.map (·.2)

def size (m : SortedMap κ ν) : Nat := m.entries.length

def isEmpty (m : SortedMap κ ν) : Bool := m.entries.isEmpty

def find? (m : SortedMap κ ν) (key : κ) : Option ν :=
  (m.entries.find? fun entry => compare entry.1 key == .eq).map (·.2)

def contains (m : SortedMap κ ν) (key : κ) : Bool :=
  m.entries.any fun entry => compare entry.1 key == .eq

def alterEntries (key : κ) (f : Option ν → ν) : List (κ × ν) → List (κ × ν)
  | [] => [(key, f none)]
  | (k, v) :: rest =>
    match compare key k with
    | .lt => (key, f none) :: (k, v) :: rest
    | .eq => (k, f (some v)) :: rest
    | .gt => (k, v) :: alterEntries key f rest

theorem forall_alterEntries {p : κ → Prop} {key : κ} {f : Option ν → ν} {entries : List (κ × ν)}
    (new : p key) (old : ∀ entry ∈ entries, p entry.1) :
    ∀ entry ∈ alterEntries key f entries, p entry.1 := by
  induction entries with
  | nil => simpa [alterEntries] using new
  | cons head rest ih =>
    have hrest := ih fun entry member => old entry (List.mem_cons_of_mem _ member)
    have hhead := old head List.mem_cons_self
    simp only [alterEntries]
    split
    · simpa using ⟨new, hhead, fun a b member => old (a, b) (List.mem_cons_of_mem _ member)⟩
    · simpa using ⟨hhead, fun a b member => old (a, b) (List.mem_cons_of_mem _ member)⟩
    · simpa using ⟨hhead, fun a b member => hrest (a, b) member⟩

theorem ascending_alterEntries [TransOrd κ] (key : κ) (f : Option ν → ν) {entries : List (κ × ν)}
    (h : entries.Pairwise fun a b => compare a.1 b.1 = .lt) :
    (alterEntries key f entries).Pairwise fun a b => compare a.1 b.1 = .lt := by
  induction entries with
  | nil => exact List.pairwise_singleton ..
  | cons head rest ih =>
    obtain ⟨hhead, hrest⟩ := List.pairwise_cons.1 h
    simp only [alterEntries]
    split
    · next below =>
      refine List.pairwise_cons.2 ⟨fun entry member => ?_, h⟩
      rcases List.mem_cons.1 member with rfl | member
      · exact below
      · exact TransCmp.lt_trans below (hhead entry member)
    · exact List.pairwise_cons.2 ⟨hhead, hrest⟩
    · next above =>
      exact List.pairwise_cons.2 ⟨forall_alterEntries (p := fun k => compare head.1 k = .lt)
        (OrientedCmp.lt_of_gt above) hhead, ih hrest⟩

def alter [TransOrd κ] (m : SortedMap κ ν) (key : κ) (f : Option ν → ν) : SortedMap κ ν :=
  ⟨alterEntries key f m.entries, ascending_alterEntries key f m.ascending⟩

def insert [TransOrd κ] (m : SortedMap κ ν) (key : κ) (value : ν) : SortedMap κ ν :=
  m.alter key fun _ => value

def ofList [TransOrd κ] (entries : List (κ × ν)) : SortedMap κ ν :=
  entries.foldl (fun m entry => m.insert entry.1 entry.2) empty

def mapWithKey {ν' : Type} (m : SortedMap κ ν) (f : κ → ν → ν') : SortedMap κ ν' :=
  ⟨m.entries.map fun entry => (entry.1, f entry.1 entry.2),
    List.pairwise_map.2 m.ascending⟩

def modify (m : SortedMap κ ν) (key : κ) (f : ν → ν) : SortedMap κ ν :=
  m.mapWithKey fun k v => if compare k key == .eq then f v else v

end SortedMap

end LedgerDrill
