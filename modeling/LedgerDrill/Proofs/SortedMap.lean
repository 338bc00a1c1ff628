import LedgerDrill.SortedMap
import Mathlib.Algebra.GroupWithZero.Nat

namespace LedgerDrill.SortedMap
open Std

variable {κ ν : Type} [Ord κ] [LawfulEqOrd κ]
variable {m : SortedMap κ ν} {key k : κ}

theorem compare_beq_eq (a b : κ) : (compare a b == .eq) = true ↔ a = b := by
  rw [beq_iff_eq, Std.compare_eq_iff_eq]

theorem contains_iff : m.contains key = true ↔ ∃ v, (key, v) ∈ m.entries := by
  simp only [contains, List.any_eq_true, compare_beq_eq]
  constructor
  · rintro ⟨⟨k, v⟩, member, rfl⟩
    exact ⟨v, member⟩
  · rintro ⟨v, member⟩
    exact ⟨(key, v), member, rfl⟩

theorem exists_split (h : m.contains key = true) :
    ∃ before v after, m.entries = before ++ (key, v) :: after ∧
      (∀ entry ∈ before, entry.1 ≠ key) ∧ ∀ entry ∈ after, entry.1 ≠ key := by
  obtain ⟨v, member⟩ := contains_iff.mp h
  obtain ⟨before, after, split⟩ := List.append_of_mem member
  have ascending := m.ascending
  rw [split, List.pairwise_append, List.pairwise_cons] at ascending
  obtain ⟨_, ⟨above, _⟩, below⟩ := ascending
  refine ⟨before, v, after, split, ?_, ?_⟩
  · intro entry member same
    have less := below entry member (key, v) List.mem_cons_self
    rw [same, compare_self] at less
    contradiction
  · intro entry member same
    have less := above entry member
    rw [same, compare_self] at less
    contradiction

theorem map_of_forall_ne {entries : List (κ × ν)} (ne : ∀ entry ∈ entries, entry.1 ≠ key)
    (f : ν → ν) :
    entries.map (fun entry =>
      (entry.1, if compare entry.1 key == .eq then f entry.2 else entry.2)) = entries := by
  refine (List.map_congr_left ?_).trans (List.map_id entries)
  intro entry member
  have different : ¬ (compare entry.1 key == .eq) = true := fun h =>
    ne entry member ((compare_beq_eq _ _).mp h)
  simp [different]

theorem entries_modify {before after : List (κ × ν)} {v : ν}
    (split : m.entries = before ++ (key, v) :: after) (low : ∀ entry ∈ before, entry.1 ≠ key)
    (high : ∀ entry ∈ after, entry.1 ≠ key) (f : ν → ν) :
    (m.modify key f).entries = before ++ (key, f v) :: after := by
  simp only [modify, mapWithKey, split, List.map_append, List.map_cons, compare_self]
  rw [map_of_forall_ne low, map_of_forall_ne high]
  rfl

theorem entries_modify_of_not_contains (h : m.contains key = false) (f : ν → ν) :
    (m.modify key f).entries = m.entries := by
  apply map_of_forall_ne
  rintro ⟨k, v⟩ member rfl
  rw [contains_iff.mpr ⟨v, member⟩] at h
  contradiction

omit [LawfulEqOrd κ] in
theorem contains_mapWithKey {ν' : Type} (f : κ → ν → ν') :
    (m.mapWithKey f).contains key = m.contains key := by
  simp [contains, mapWithKey, List.any_map, Function.comp_def]

omit [LawfulEqOrd κ] in
theorem contains_modify (f : ν → ν) : (m.modify key f).contains k = m.contains k :=
  contains_mapWithKey _

theorem sum_modify {g : κ × ν → Nat} {f : ν → ν} {more : Nat} (h : m.contains key = true)
    (adds : ∀ v, g (key, f v) = g (key, v) + more) :
    ((m.modify key f).entries.map g).sum = (m.entries.map g).sum + more := by
  obtain ⟨before, v, after, split, low, high⟩ := exists_split h
  rw [entries_modify split low high, split]
  simp only [List.map_append, List.map_cons, List.sum_append, List.sum_cons, adds]
  omega

theorem any_alterEntries (f : Option ν → ν) (entries : List (κ × ν)) :
    (alterEntries key f entries).any (compare ·.1 k == .eq) =
      (compare key k == .eq || entries.any (compare ·.1 k == .eq)) := by
  induction entries with
  | nil => simp [alterEntries]
  | cons head rest ih =>
      obtain ⟨k', v⟩ := head
      simp only [alterEntries]
      cases order : compare key k' with
      | lt => simp
      | eq =>
          obtain rfl := Std.compare_eq_iff_eq.mp order
          simp
      | gt =>
          simp only [List.any_cons, ih]
          rw [Bool.or_left_comm]

theorem sum_alterEntries {g : κ × ν → Nat} {f : Option ν → ν} {more : Nat} (new : g (key, f none) = more)
    (old : ∀ v, g (key, f (some v)) = g (key, v) + more) (entries : List (κ × ν)) :
    ((alterEntries key f entries).map g).sum = (entries.map g).sum + more := by
  induction entries with
  | nil => simp [alterEntries, new]
  | cons head rest ih =>
      obtain ⟨k', v⟩ := head
      simp only [alterEntries]
      cases order : compare key k' with
      | lt =>
          simp only [List.map_cons, List.sum_cons, new]
          omega
      | eq =>
          obtain rfl := Std.compare_eq_iff_eq.mp order
          simp only [List.map_cons, List.sum_cons, old]
          omega
      | gt =>
          simp only [List.map_cons, List.sum_cons, ih]
          omega

theorem find?_alterEntries_ne {f : Option ν → ν} (ne : key ≠ k) (entries : List (κ × ν)) :
    (alterEntries key f entries).find? (compare ·.1 k == .eq) =
      entries.find? (compare ·.1 k == .eq) := by
  have different : (compare key k == .eq) = false := by
    rw [Bool.eq_false_iff]
    exact fun same => ne ((compare_beq_eq _ _).mp same)
  induction entries with
  | nil => simp [alterEntries, different]
  | cons head rest ih =>
      obtain ⟨k', v⟩ := head
      simp only [alterEntries]
      cases order : compare key k' with
      | lt => simp [different]
      | eq =>
          obtain rfl := Std.compare_eq_iff_eq.mp order
          simp [different]
      | gt => simp [List.find?_cons, ih]

theorem find?_of_split {before after : List (κ × ν)} {v : ν} (split : m.entries = before ++ (key, v) :: after)
    (low : ∀ entry ∈ before, entry.1 ≠ key) : m.find? key = some v := by
  have missed : before.find? (compare ·.1 key == .eq) = none :=
    List.find?_eq_none.mpr fun entry member same => low entry member ((compare_beq_eq _ _).mp same)
  rw [find?, split, List.find?_append, missed, Option.none_or, List.find?_cons_of_pos (by simp [compare_self])]
  rfl

theorem find?_eq_some_iff {v : ν} : m.find? key = some v ↔ (key, v) ∈ m.entries := by
  constructor
  · intro found
    obtain ⟨⟨k, v⟩, hit, rfl⟩ := Option.map_eq_some_iff.mp found
    have chosen := List.find?_some hit
    obtain rfl : k = key := (compare_beq_eq _ _).mp chosen
    exact List.mem_of_find?_eq_some hit
  · intro member
    obtain ⟨before, w, after, split, low, high⟩ := exists_split (contains_iff.mpr ⟨v, member⟩)
    rw [split] at member
    rcases List.mem_append.mp member with member | member
    · exact absurd rfl (low _ member)
    · rcases List.mem_cons.mp member with same | member
      · cases same
        exact find?_of_split split low
      · exact absurd rfl (high _ member)

theorem isSome_find? : (m.find? key).isSome = m.contains key := by
  rw [Bool.eq_iff_iff, contains_iff, Option.isSome_iff_exists]
  exact exists_congr fun _ => find?_eq_some_iff

theorem find?_mapWithKey {ν' : Type} (f : κ → ν → ν') :
    (m.mapWithKey f).find? key = (m.find? key).map (f key) := by
  simp only [find?, mapWithKey, List.find?_map, Option.map_map, Function.comp_def]
  cases found : m.entries.find? fun entry => compare entry.1 key == .eq with
  | none => rfl
  | some entry =>
      have chosen := List.find?_some found
      obtain rfl : entry.1 = key := (compare_beq_eq _ _).mp chosen
      rfl

theorem find?_modify_self (f : ν → ν) : (m.modify key f).find? key = (m.find? key).map f := by
  rw [modify, find?_mapWithKey]
  simp [compare_self]

theorem find?_modify_ne (f : ν → ν) (ne : k ≠ key) : (m.modify key f).find? k = m.find? k := by
  rw [modify, find?_mapWithKey]
  simp [ne]

omit [LawfulEqOrd κ] in
theorem pairwise_keys : m.keys.Pairwise fun a b => compare a b = .lt := List.pairwise_map.mpr m.ascending

theorem mem_keys : key ∈ m.keys ↔ m.contains key = true := by
  rw [contains_iff, keys, List.mem_map]
  exact ⟨fun ⟨entry, member, same⟩ => ⟨entry.2, same ▸ member⟩, fun ⟨v, member⟩ => ⟨(key, v), member, rfl⟩⟩

variable [TransOrd κ]

theorem contains_alter (f : Option ν → ν) :
    (m.alter key f).contains k = (compare key k == .eq || m.contains k) :=
  any_alterEntries f m.entries

theorem find?_alterEntries_self {f : Option ν → ν} {entries : List (κ × ν)}
    (ascending : entries.Pairwise fun a b => compare a.1 b.1 = .lt) :
    ((alterEntries key f entries).find? (compare ·.1 key == .eq)).map (·.2) =
      some (f ((entries.find? (compare ·.1 key == .eq)).map (·.2))) := by
  induction entries with
  | nil => simp [alterEntries, compare_self]
  | cons head rest ih =>
      obtain ⟨k', v⟩ := head
      obtain ⟨above, ascending⟩ := List.pairwise_cons.mp ascending
      simp only [alterEntries]
      cases order : compare key k' with
      | lt =>
          -- The entries ascend, so none behind a greater key has this one.
          have absent : ((k', v) :: rest).find? (compare ·.1 key == .eq) = none := by
            rw [List.find?_eq_none]
            intro entry member same
            obtain rfl := (compare_beq_eq _ _).mp same
            rcases List.mem_cons.mp member with rfl | member
            · simp [compare_self] at order
            · have := TransCmp.lt_trans order (above entry member)
              simp [compare_self] at this
          simp [absent, compare_self]
      | eq =>
          obtain rfl := Std.compare_eq_iff_eq.mp order
          simp [compare_self]
      | gt =>
          have ne : (compare k' key == .eq) = false := by
            rw [Bool.eq_false_iff]
            intro same
            obtain rfl := (compare_beq_eq _ _).mp same
            simp [compare_self] at order
          simp only [List.find?_cons, ne]
          exact ih ascending

theorem find?_alter_self (f : Option ν → ν) :
    (m.alter key f).find? key = some (f (m.find? key)) :=
  find?_alterEntries_self m.ascending

theorem find?_alter_ne (f : Option ν → ν) (ne : key ≠ k) :
    (m.alter key f).find? k = m.find? k := by
  simp only [find?, alter]
  rw [find?_alterEntries_ne ne]

theorem ext_find? {m' : SortedMap κ ν} (same : ∀ key, m.find? key = m'.find? key) : m = m' := by
  have members (entry : κ × ν) : entry ∈ m.entries ↔ entry ∈ m'.entries := by
    rw [← find?_eq_some_iff, ← find?_eq_some_iff, same]
  have nodup (m : SortedMap κ ν) : m.entries.Nodup :=
    m.ascending.imp fun {a b} less equal => by simp [equal, compare_self] at less
  have perm := (List.perm_ext_iff_of_nodup (nodup m) (nodup m')).mpr members
  have equal : m.entries = m'.entries :=
    perm.eq_of_pairwise (fun a b _ _ less more => by
      have := TransCmp.lt_trans less more
      simp [compare_self] at this) m.ascending m'.ascending
  cases m
  cases m'
  cases equal
  rfl

theorem contains_ofList (entries : List (κ × ν)) :
    (ofList entries).contains k = entries.any (compare ·.1 k == .eq) := by
  have general (m : SortedMap κ ν) : (entries.foldl (fun m entry => m.insert entry.1 entry.2) m).contains k =
      (m.contains k || entries.any (compare ·.1 k == .eq)) := by
    induction entries generalizing m with
    | nil => simp
    | cons entry rest ih =>
        rw [List.foldl_cons, ih, insert, contains_alter, List.any_cons, Bool.or_comm _ (m.contains k), Bool.or_assoc]
  exact general empty

end LedgerDrill.SortedMap
