import LedgerDrill.Outcome.Snapshot
import LedgerDrill.Proofs.Text.Quoted

namespace LedgerDrill.Outcome
open Text (IsVisible decimal isDigit)
open Text.Quoted (encode)

variable {text : List Char}

/-- Every line ends with a break, so nothing stands behind the last one. -/
def lines (text : String) : List (List Char) := text.toList.splitOn '\n'

def columns (line : List Char) : List (List Char) := line.splitOn '\t'

/-! ## Outcomes -/

def itemText (item : String × Nat) : List Char := encode item.1.toList ++ ':' :: ' ' :: decimal item.2

def restText (items : List (String × Nat)) : List Char :=
  items.flatMap (fun item => ',' :: ' ' :: itemText item) ++ ['\x7d']

theorem toList_text (counts : Counts) : counts.text.toList =
    '\x7b' :: match counts.entries with
      | [] => ['\x7d']
      | item :: items => itemText item ++ restText items := by
  have shown (item : String × Nat) : (Text.Quoted.quote item.1 ++ ": " ++ item.2.repr).toList = itemText item := by
    have colon : ": ".toList = [':', ' '] := rfl
    simp only [Text.Quoted.quote, String.toList_append, String.toList_ofList, Nat.toList_repr, colon, itemText,
      decimal, List.append_assoc, List.cons_append, List.nil_append]
  have opening : "\x7b".toList = ['\x7b'] := rfl
  have closing : "\x7d".toList = ['\x7d'] := rfl
  have comma : ", ".toList = [',', ' '] := rfl
  simp only [Counts.text, String.toList_append, String.toList_intercalate, List.map_map, Function.comp_def, shown,
    opening, closing, comma, List.cons_append, List.nil_append]
  congr 1
  cases counts.entries with
  | nil => rfl
  | cons item items =>
      rw [List.map_cons, Text.intercalate_cons, List.append_assoc, List.flatMap_map]
      rfl

theorem restText_head (items : List (String × Nat)) : (restText items).head?.any isDigit = false := by
  cases items <;> rfl

theorem itemText_append_inj {item item' : String × Nat} {items items' : List (String × Nat)}
    (same : itemText item ++ restText items = itemText item' ++ restText items') :
    item = item' ∧ restText items = restText items' := by
  simp only [itemText, List.append_assoc, List.cons_append] at same
  obtain ⟨labels, later⟩ := Text.Quoted.encode_append_inj same
  obtain ⟨counts, rests⟩ := Text.decimal_append_inj (restText_head items) (restText_head items')
    (List.cons.inj (List.cons.inj later).2).2
  exact ⟨Prod.ext (String.toList_inj.mp labels) counts, rests⟩

theorem restText_inj {items items' : List (String × Nat)} (same : restText items = restText items') :
    items = items' := by
  have closes (item : String × Nat) (items : List (String × Nat)) : restText [] ≠ restText (item :: items) := by
    intro same
    have brace : '\x7d' = ',' := (List.cons.inj same).1
    contradiction
  induction items generalizing items' with
  | nil =>
      cases items' with
      | nil => rfl
      | cons item' items' => exact absurd same (closes item' items')
  | cons item items ih =>
      cases items' with
      | nil => exact absurd same.symm (closes item items)
      | cons item' items' =>
          simp only [restText, List.flatMap_cons, List.append_assoc, List.cons_append, List.cons.injEq,
            true_and] at same
          obtain ⟨rfl, rests⟩ := itemText_append_inj same
          rw [ih rests]

theorem text_inj {counts counts' : Counts} (same : counts.text = counts'.text) : counts = counts' := by
  have opens (item : String × Nat) (rest : List Char) : ['\x7d'] ≠ itemText item ++ rest := by
    intro same
    have quote : '\x7d' = '"' := (List.cons.inj same).1
    contradiction
  have texts := congrArg String.toList same
  rw [toList_text, toList_text] at texts
  obtain ⟨entries, ascending⟩ := counts
  obtain ⟨entries', ascending'⟩ := counts'
  have equal : entries = entries' := by
    cases entries with
    | nil =>
        cases entries' with
        | nil => rfl
        | cons item' items' => exact absurd (List.cons.inj texts).2 (opens item' _)
    | cons item items =>
        cases entries' with
        | nil => exact absurd (List.cons.inj texts).2.symm (opens item _)
        | cons item' items' =>
            obtain ⟨rfl, rests⟩ := itemText_append_inj (List.cons.inj texts).2
            rw [restText_inj rests]
  subst equal
  rfl

/-! ## What stands in a column -/

theorem isVisible_decimal (n : Nat) : ∀ c ∈ decimal n, IsVisible c := Text.isVisible_toDigits (by decide)

theorem isVisible_twoPlaces (d : Duration) : ∀ c ∈ d.twoPlaces.toList, IsVisible c := by
  rw [Duration.twoPlaces, String.toList_ofList, Binary64.twoPlaces]
  simp only [List.forall_mem_append, List.forall_mem_cons, List.not_mem_nil, false_implies, implies_true, and_true]
  exact ⟨Text.isVisible_toDigits (by decide), by decide, Text.isVisible_digitChar _, Text.isVisible_digitChar _⟩

theorem isVisible_itemText (item : String × Nat) : ∀ c ∈ itemText item, IsVisible c := by
  simp only [itemText, List.forall_mem_append, List.forall_mem_cons]
  exact ⟨Text.Quoted.isVisible_encode _, by decide, by decide, isVisible_decimal _⟩

theorem isVisible_restText (items : List (String × Nat)) : ∀ c ∈ restText items, IsVisible c := by
  simp only [restText, List.forall_mem_append, List.forall_mem_flatMap, List.forall_mem_cons]
  exact ⟨fun item _ => ⟨by decide, by decide, isVisible_itemText item⟩, by decide, nofun⟩

theorem isVisible_text (counts : Counts) : ∀ c ∈ counts.text.toList, IsVisible c := by
  rw [toList_text, List.forall_mem_cons]
  refine ⟨by decide, ?_⟩
  cases counts.entries with
  | nil => exact List.forall_mem_singleton.mpr (by decide)
  | cons item items => exact List.forall_mem_append.mpr ⟨isVisible_itemText item, isVisible_restText items⟩

namespace Entry

def loopName (e : Entry) : String := "Node " ++ (e.node + 1).repr ++ ": " ++ e.kind.name

/-- The columns of the line of an entry. Behind each of the two latencies one is left empty. -/
def cells (e : Entry) : List (List Char) :=
  [e.loopName.toList, ((e.running.map Duration.twoPlaces).getD "-").toList, [], e.longest.twoPlaces.toList, [],
    e.violations.repr.toList, e.outcomes.text.toList]

def line (e : Entry) : List Char := ['\t'].intercalate e.cells

variable (e : Entry)

theorem toList_row : e.row.toList = e.line ++ ['\n'] := by
  have joined (loop running longest violations outcomes : String) :
      (loop ++ "\t" ++ running ++ "\t\t" ++ longest ++ "\t\t" ++ violations ++ "\t" ++ outcomes ++ "\n").toList =
        ['\t'].intercalate [loop.toList, running.toList, [], longest.toList, [], violations.toList, outcomes.toList]
          ++ ['\n'] := by
    have tab : "\t".toList = ['\t'] := rfl
    have tabs : "\t\t".toList = ['\t', '\t'] := rfl
    have ending : "\n".toList = ['\n'] := rfl
    simp only [String.toList_append, tab, tabs, ending, Text.intercalate_cons, List.flatMap_cons, List.flatMap_nil,
      List.append_assoc, List.cons_append, List.nil_append, List.append_nil]
  exact joined e.loopName _ _ _ _

theorem isVisible_loopName : ∀ c ∈ e.loopName.toList, IsVisible c := by
  have kinds : ∀ kind : LoopKind, ∀ c ∈ kind.name.toList, IsVisible c := by
    rintro (_ | _) <;> exact Text.isVisible_of_all (by decide)
  simp only [loopName, String.toList_append, Nat.toList_repr, List.forall_mem_append]
  exact ⟨⟨⟨Text.isVisible_of_all (by decide), isVisible_decimal _⟩, Text.isVisible_of_all (by decide)⟩, kinds e.kind⟩

theorem isVisible_cells : ∀ cell ∈ e.cells, ∀ c ∈ cell, IsVisible c := by
  have running : ∀ c ∈ ((e.running.map Duration.twoPlaces).getD "-").toList, IsVisible c := by
    cases e.running with
    | none => exact Text.isVisible_of_all (by decide)
    | some d => exact isVisible_twoPlaces d
  simp only [cells, List.forall_mem_cons, List.not_mem_nil, false_implies, implies_true, and_true, true_and]
  refine ⟨e.isVisible_loopName, running, isVisible_twoPlaces e.longest, ?_, isVisible_text e.outcomes⟩
  rw [Nat.toList_repr]
  exact isVisible_decimal e.violations

theorem columns_line : columns e.line = e.cells := by
  refine List.splitOn_intercalate '\t' (fun cell member tab => ?_) (List.cons_ne_nil _ _)
  have visible := e.isVisible_cells cell member '\t' tab
  contradiction

theorem mem_line {c : Char} (member : c ∈ e.line) : c = '\t' ∨ IsVisible c := by
  have visible := e.isVisible_cells
  rw [cells, List.forall_mem_cons] at visible
  rw [line, cells, Text.intercalate_cons, List.mem_append, List.mem_flatMap] at member
  rcases member with first | ⟨cell, listed, written⟩
  · exact .inr (visible.1 c first)
  · rcases List.mem_cons.mp written with tab | inside
    · exact .inl tab
    · exact .inr (visible.2 cell listed c inside)

theorem break_notMem_line : '\n' ∉ e.line := by
  intro member
  have shown := e.mem_line member
  revert shown
  decide

theorem count_tab_line : e.line.count '\t' = 6 := by
  have none (cell : List Char) (listed : cell ∈ e.cells) : cell.count '\t' = 0 := by
    refine List.count_eq_zero_of_not_mem fun tab => ?_
    have visible := e.isVisible_cells cell listed '\t' tab
    contradiction
  rw [cells] at none
  simp only [List.forall_mem_cons] at none
  simp only [line, cells, List.intercalate_cons_cons, List.intercalate_singleton, List.count_append, none]
  rfl

end Entry

/-! ## Tables -/

theorem lines_table (s : Snapshot) : lines s.table =
    "\t\trunning_latency\tmax_latency\tisolation\tfinish".toList :: (s.entries.map Entry.line ++ [[]]) := by
  have rows (entries : List Entry) :
      ((entries.map Entry.row).flatMap String.toList).splitOn '\n' = entries.map Entry.line ++ [[]] := by
    induction entries with
    | nil => rfl
    | cons e entries ih =>
        rw [List.map_cons, List.flatMap_cons, e.toList_row, List.append_assoc,
          List.singleton_append, List.splitOn_append_cons_self_of_not_mem e.break_notMem_line, ih, List.map_cons,
          List.cons_append]
  have heading : Snapshot.header.toList =
      "\t\trunning_latency\tmax_latency\tisolation\tfinish".toList ++ ['\n'] := rfl
  rw [lines, Snapshot.table, String.toList_append, String.toList_join, heading, List.append_assoc,
    List.singleton_append, List.splitOn_append_cons_self_of_not_mem (by decide), rows]

/-- No label breaks the table: it has its heading and one line for each entry in their order, each with six tabs,
with the name of the loop in front of the first one and a last column that tells the outcomes. -/
theorem tables_are_unambiguous :
    (∀ s : Snapshot, lines s.table =
      "\t\trunning_latency\tmax_latency\tisolation\tfinish".toList :: (s.entries.map Entry.line ++ [[]])) ∧
    (∀ e : Entry, e.line.count '\t' = 6 ∧
      (columns e.line).head? = some ("Node " ++ (e.node + 1).repr ++ ": " ++ e.kind.name).toList) ∧
    (∀ e e' : Entry, (columns e.line).getLast? = (columns e'.line).getLast? ↔ e.outcomes = e'.outcomes) := by
  refine ⟨lines_table, fun e => ⟨e.count_tab_line, ?_⟩, fun e e' => ?_⟩
  · rw [e.columns_line]
    rfl
  · rw [e.columns_line, e'.columns_line]
    constructor
    · intro same
      exact text_inj (String.toList_inj.mp (Option.some.inj same))
    · intro same
      simp only [Entry.cells, List.getLast?_cons_cons, List.getLast?_singleton, same]

end LedgerDrill.Outcome
