import LedgerDrill.Cluster.Links
import Mathlib.Data.List.Induction
import Mathlib.Data.List.Nodup
import Mathlib.Data.List.Perm.Subperm

namespace LedgerDrill.Cluster

theorem link_eq_link_iff {a b x y : Nat} : link a b = link x y ↔ x = a ∧ y = b ∨ x = b ∧ y = a := by
  unfold link
  split <;> split <;> simp only [Prod.mk.injEq] <;> omega

theorem link_comm (a b : Nat) : link a b = link b a := link_eq_link_iff.mpr (Or.inr ⟨rfl, rfl⟩)

namespace Links

variable {l : Links} {a b size node : Nat} {p : Nat × Nat}

/-! ## What is cut after an act -/

theorem mem_cuts_cut : p ∈ (l.cut a b).cuts ↔ p ∈ l.cuts ∨ a ≠ b ∧ p = link a b := by
  unfold Links.cut
  split
  · next known =>
      simp only [Bool.or_eq_true, decide_eq_true_eq, List.contains_iff_mem] at known
      refine ⟨Or.inl, ?_⟩
      rintro (before | ⟨apart, rfl⟩)
      · exact before
      · exact known.resolve_left apart
  · next fresh =>
      simp only [Bool.or_eq_true, decide_eq_true_eq, not_or] at fresh
      rw [List.mem_cons, or_comm, and_iff_right fresh.1]

theorem mem_cuts_restore : p ∈ (l.restore a b).cuts ↔ p ∈ l.cuts ∧ p ≠ link a b := by
  simp [restore]

theorem mem_cuts_isolate :
    p ∈ (l.isolate size node).cuts ↔ p ∈ l.cuts ∨ ∃ peer < size, node ≠ peer ∧ p = link node peer := by
  have general (peers : List Nat) : p ∈ (peers.foldl (cut · node ·) l).cuts ↔
      p ∈ l.cuts ∨ ∃ peer ∈ peers, node ≠ peer ∧ p = link node peer := by
    induction peers generalizing l with
    | nil => simp
    | cons peer peers ih => simp only [List.foldl_cons, ih, mem_cuts_cut, or_assoc, List.mem_cons, exists_eq_or_imp]
  simp only [isolate, general, List.mem_range]

theorem mem_cuts_heal : p ∈ (l.heal size node).cuts ↔ p ∈ l.cuts ∧ ∀ peer < size, p ≠ link node peer := by
  have general (peers : List Nat) : p ∈ (peers.foldl (restore · node ·) l).cuts ↔
      p ∈ l.cuts ∧ ∀ peer ∈ peers, p ≠ link node peer := by
    induction peers generalizing l with
    | nil => simp
    | cons peer peers ih => rw [List.foldl_cons, ih, mem_cuts_restore, and_assoc, List.forall_mem_cons]
  simp only [heal, general, List.mem_range]

theorem connected_self (l : Links) (a : Nat) : l.connected a a = true := by
  simp [connected]

theorem connected_comm (l : Links) (a b : Nat) : l.connected a b = l.connected b a := by
  rw [connected, connected, link_comm, Bool.beq_comm]

theorem connected_of_not_mem (known : link a b ∉ l.cuts) : l.connected a b = true := by
  simp [connected, known]

theorem connected_eq_false_iff (apart : a ≠ b) : l.connected a b = false ↔ link a b ∈ l.cuts := by
  simp [connected, apart]

/-! ## Histories -/

inductive Act
  | cut (a b : Nat)
  | restore (a b : Nat)
  | isolate (node : Nat)
  | heal (node : Nat)
deriving DecidableEq

namespace Act

def nodes : Act → List Nat
  | cut a b | restore a b => [a, b]
  | isolate node | heal node => [node]

def Touches (a b : Nat) : Act → Prop
  | cut x y | restore x y => x = a ∧ y = b ∨ x = b ∧ y = a
  | isolate node | heal node => node = a ∨ node = b

instance (a b : Nat) (act : Act) : Decidable (act.Touches a b) := by
  cases act <;> unfold Touches <;> infer_instance

def isCutting : Act → Bool
  | cut .. | isolate _ => true
  | restore .. | heal _ => false

end Act

def perform (size : Nat) (l : Links) : Act → Links
  | .cut a b => l.cut a b
  | .restore a b => l.restore a b
  | .isolate node => l.isolate size node
  | .heal node => l.heal size node

def after (size : Nat) (acts : List Act) : Links := acts.foldl (perform size) {}

/-- Of the acts that had to do with the link, there is a last one, and it cut. -/
def CutLast (a b : Nat) (acts : List Act) : Prop :=
  ∃ before act later, acts = before ++ act :: later ∧ act.Touches a b ∧ act.isCutting = true ∧
    ∀ other ∈ later, ¬ other.Touches a b

theorem after_append (acts more : List Act) : after size (acts ++ more) = more.foldl (perform size) (after size acts) :=
  List.foldl_append

theorem cutLast_append_of_touches {acts : List Act} {act : Act} (touches : act.Touches a b) :
    CutLast a b (acts ++ [act]) ↔ act.isCutting = true := by
  constructor
  · rintro ⟨before, last, later, split, -, cutting, quiet⟩
    rcases List.eq_nil_or_concat later with rfl | ⟨later, other, rfl⟩
    · obtain ⟨-, same⟩ := List.append_inj' split rfl
      cases same
      exact cutting
    · rw [List.concat_eq_append, ← List.cons_append, ← List.append_assoc] at split
      obtain ⟨-, same⟩ := List.append_inj' split rfl
      cases same
      exact absurd touches (quiet act (by simp))
  · exact fun cutting => ⟨acts, act, [], rfl, touches, cutting, nofun⟩

theorem cutLast_append_of_not_touches {acts : List Act} {act : Act} (elsewhere : ¬ act.Touches a b) :
    CutLast a b (acts ++ [act]) ↔ CutLast a b acts := by
  constructor
  · rintro ⟨before, last, later, split, touches, cutting, quiet⟩
    rcases List.eq_nil_or_concat later with rfl | ⟨later, other, rfl⟩
    · obtain ⟨-, same⟩ := List.append_inj' split rfl
      cases same
      exact absurd touches elsewhere
    · rw [List.concat_eq_append, ← List.cons_append, ← List.append_assoc] at split
      obtain ⟨rfl, -⟩ := List.append_inj' split rfl
      exact ⟨before, last, later, rfl, touches, cutting, fun other member => quiet other (by simp [member])⟩
  · rintro ⟨before, last, later, rfl, touches, cutting, quiet⟩
    refine ⟨before, last, later ++ [act], by simp, touches, cutting, fun other member => ?_⟩
    rcases List.mem_append.mp member with earlier | isLast
    · exact quiet other earlier
    · exact List.mem_singleton.mp isLast ▸ elsewhere

theorem exists_peer_iff (boundA : a < size) (boundB : b < size) (apart : a ≠ b) :
    (∃ peer < size, node ≠ peer ∧ link a b = link node peer) ↔ node = a ∨ node = b := by
  simp only [link_eq_link_iff]
  constructor
  · rintro ⟨peer, -, -, ⟨same, -⟩ | ⟨same, -⟩⟩
    · exact Or.inl same
    · exact Or.inr same
  · rintro (rfl | rfl)
    · exact ⟨b, boundB, apart, Or.inl ⟨rfl, rfl⟩⟩
    · exact ⟨a, boundA, apart.symm, Or.inr ⟨rfl, rfl⟩⟩

theorem link_mem_perform_of_touches (boundA : a < size) (boundB : b < size) (apart : a ≠ b) {act : Act}
    (touches : act.Touches a b) : link a b ∈ (l.perform size act).cuts ↔ act.isCutting = true := by
  cases act with
  | cut x y =>
      have differ : x ≠ y := by
        rcases touches with ⟨rfl, rfl⟩ | ⟨rfl, rfl⟩
        · exact apart
        · exact apart.symm
      exact iff_of_true (mem_cuts_cut.mpr (Or.inr ⟨differ, link_eq_link_iff.mpr touches⟩)) rfl
  | restore x y =>
      exact iff_of_false (fun left => (mem_cuts_restore.mp left).2 (link_eq_link_iff.mpr touches)) Bool.false_ne_true
  | isolate node =>
      have isolated := (exists_peer_iff boundA boundB apart).mpr touches
      exact iff_of_true (mem_cuts_isolate.mpr (Or.inr isolated)) rfl
  | heal node =>
      obtain ⟨peer, bound, -, same⟩ := (exists_peer_iff boundA boundB apart).mpr touches
      exact iff_of_false (fun left => (mem_cuts_heal.mp left).2 peer bound same) Bool.false_ne_true

theorem link_mem_perform_of_not_touches {act : Act} (elsewhere : ¬ act.Touches a b) :
    link a b ∈ (l.perform size act).cuts ↔ link a b ∈ l.cuts := by
  have ofNode {node peer : Nat} (away : ¬ (node = a ∨ node = b)) : link a b ≠ link node peer := fun same =>
    away ((link_eq_link_iff.mp same).imp And.left And.left)
  cases act with
  | cut x y =>
      exact mem_cuts_cut.trans (or_iff_left fun cut => elsewhere (link_eq_link_iff.mp cut.2))
  | restore x y =>
      exact mem_cuts_restore.trans (and_iff_left fun same => elsewhere (link_eq_link_iff.mp same))
  | isolate node =>
      refine mem_cuts_isolate.trans (or_iff_left ?_)
      rintro ⟨peer, -, -, same⟩
      exact ofNode elsewhere same
  | heal node => exact mem_cuts_heal.trans (and_iff_left fun peer _ => ofNode elsewhere)

theorem link_mem_after (boundA : a < size) (boundB : b < size) (apart : a ≠ b) (acts : List Act) :
    link a b ∈ (after size acts).cuts ↔ CutLast a b acts := by
  induction acts using List.reverseRecOn with
  | nil =>
      refine iff_of_false List.not_mem_nil ?_
      rintro ⟨before, act, later, split, -⟩
      simp at split
  | append_singleton acts act ih =>
      rw [after_append, List.foldl_cons, List.foldl_nil]
      by_cases touches : act.Touches a b
      · rw [link_mem_perform_of_touches boundA boundB apart touches, cutLast_append_of_touches touches]
      · rw [link_mem_perform_of_not_touches touches, cutLast_append_of_not_touches touches, ih]

def Proper (size : Nat) (l : Links) : Prop :=
  ∀ p ∈ l.cuts, ∃ a < size, ∃ b < size, a ≠ b ∧ p = link a b

theorem Proper.perform (proper : l.Proper size) {act : Act} (within : ∀ node ∈ act.nodes, node < size) :
    (l.perform size act).Proper size := by
  intro p member
  cases act with
  | cut a b =>
      rcases mem_cuts_cut.mp member with before | ⟨apart, rfl⟩
      · exact proper p before
      · exact ⟨a, within a (by simp [Act.nodes]), b, within b (by simp [Act.nodes]), apart, rfl⟩
  | restore a b => exact proper p (mem_cuts_restore.mp member).1
  | isolate node =>
      rcases mem_cuts_isolate.mp member with before | ⟨peer, bound, apart, rfl⟩
      · exact proper p before
      · exact ⟨node, within node (by simp [Act.nodes]), peer, bound, apart, rfl⟩
  | heal node => exact proper p (mem_cuts_heal.mp member).1

theorem proper_after {acts : List Act} (within : ∀ act ∈ acts, ∀ node ∈ act.nodes, node < size) :
    (after size acts).Proper size :=
  List.foldlRecOn (motive := Proper size) acts (perform size) (fun _ none => absurd none List.not_mem_nil)
    fun _ proper act member => proper.perform (within act member)

theorem Proper.isPartitioned_iff (proper : l.Proper size) :
    l.isPartitioned = true ↔ ∃ a < size, ∃ b < size, a ≠ b ∧ l.connected a b = false := by
  rw [isPartitioned, Bool.not_eq_true', List.isEmpty_eq_false_iff_exists_mem]
  constructor
  · rintro ⟨p, member⟩
    obtain ⟨a, boundA, b, boundB, apart, rfl⟩ := proper p member
    exact ⟨a, boundA, b, boundB, apart, (connected_eq_false_iff apart).mpr member⟩
  · rintro ⟨a, -, b, -, apart, cut⟩
    exact ⟨link a b, (connected_eq_false_iff apart).mp cut⟩

/-! ## Healing -/

theorem mem_cuts_healAll {nodes : List Nat} :
    p ∈ (nodes.foldl (heal · size) l).cuts ↔ p ∈ l.cuts ∧ ∀ node ∈ nodes, ∀ peer < size, p ≠ link node peer := by
  induction nodes generalizing l with
  | nil => simp
  | cons node nodes ih => rw [List.foldl_cons, ih, mem_cuts_heal, and_assoc, List.forall_mem_cons]

theorem mem_or_mem {nodes : List Nat} (distinct : nodes.Nodup) (within : ∀ node ∈ nodes, node < size)
    (many : size ≤ nodes.length + 1) (boundA : a < size) (boundB : b < size) (apart : a ≠ b) :
    a ∈ nodes ∨ b ∈ nodes := by
  by_contra neither
  obtain ⟨noA, noB⟩ := not_or.mp neither
  have nodup : (a :: b :: nodes).Nodup := by
    simp [distinct, noA, noB, apart]
  have subset : a :: b :: nodes ⊆ List.range size := by
    intro node member
    rcases List.mem_cons.mp member with rfl | member
    · exact List.mem_range.mpr boundA
    rcases List.mem_cons.mp member with rfl | member
    · exact List.mem_range.mpr boundB
    · exact List.mem_range.mpr (within node member)
  have short := (nodup.subperm subset).length_le
  simp only [List.length_cons, List.length_range] at short
  omega

theorem Proper.cuts_healAll (proper : l.Proper size) {nodes : List Nat} (distinct : nodes.Nodup)
    (within : ∀ node ∈ nodes, node < size) (many : size ≤ nodes.length + 1) :
    (nodes.foldl (heal · size) l).cuts = [] := by
  refine List.eq_nil_iff_forall_not_mem.mpr fun p member => ?_
  obtain ⟨before, healed⟩ := mem_cuts_healAll.mp member
  obtain ⟨a, boundA, b, boundB, apart, rfl⟩ := proper p before
  rcases mem_or_mem distinct within many boundA boundB apart with isHealed | isHealed
  · exact healed a isHealed b boundB rfl
  · exact healed b isHealed a boundA (link_comm a b)

/-- Whatever was done to the links of a cluster, two of its nodes are not connected exactly if the last act on their
link cut it. Connections go both ways, and no node is cut off from itself. The cluster is partitioned exactly if some
two nodes are not connected, and it is not when all nodes but one have been healed. -/
theorem last_act_decides (size : Nat) (acts : List Act) (within : ∀ act ∈ acts, ∀ node ∈ act.nodes, node < size) :
    (∀ a, (after size acts).connected a a = true) ∧
    (∀ a b, (after size acts).connected a b = (after size acts).connected b a) ∧
    (∀ a < size, ∀ b < size, a ≠ b → ((after size acts).connected a b = false ↔ CutLast a b acts)) ∧
    ((after size acts).isPartitioned = true ↔
      ∃ a < size, ∃ b < size, a ≠ b ∧ (after size acts).connected a b = false) ∧
    ∀ nodes : List Nat, nodes.Nodup → (∀ node ∈ nodes, node < size) → nodes.length = size - 1 →
      (∀ a b, (nodes.foldl (heal · size) (after size acts)).connected a b = true) ∧
        (nodes.foldl (heal · size) (after size acts)).isPartitioned = false := by
  have proper := proper_after within
  refine ⟨connected_self _, connected_comm _, ?_, proper.isPartitioned_iff, ?_⟩
  · intro a boundA b boundB apart
    rw [connected_eq_false_iff apart, link_mem_after boundA boundB apart]
  · intro nodes distinct inside count
    have whole := proper.cuts_healAll distinct inside (by omega)
    exact ⟨fun a b => by simp [connected, whole], by simp [isPartitioned, whole]⟩

/-- A node is isolated while one of its links is cut already. That link is restored from its other end, and cut once
more after the node has been healed. -/
def overlapping : List Act := [.cut 2 0, .isolate 0, .restore 0 1, .heal 0, .cut 0 2, .isolate 3, .restore 1 3]

theorem overlapping_leaves_cuts :
    (after 4 overlapping).connected 2 0 = false ∧ (after 4 overlapping).connected 0 1 = true ∧
    (after 4 overlapping).connected 3 1 = true ∧ (after 4 overlapping).connected 3 2 = false ∧
    (after 4 overlapping).isPartitioned = true ∧
    ([3, 1, 2].foldl (heal · 4) (after 4 overlapping)).isPartitioned = false := by
  obtain ⟨-, comm, decides, partitioned, mended⟩ := last_act_decides 4 overlapping (by decide)
  have cut : (after 4 overlapping).connected 2 0 = false :=
    (decides 2 (by decide) 0 (by decide) (by decide)).mpr
      ⟨overlapping.take 4, .cut 0 2, overlapping.drop 5, rfl, by decide, rfl, by decide⟩
  have cut' : (after 4 overlapping).connected 3 2 = false :=
    (decides 3 (by decide) 2 (by decide) (by decide)).mpr
      ⟨overlapping.take 5, .isolate 3, overlapping.drop 6, rfl, by decide, rfl, by decide⟩
  refine ⟨cut, by decide, (comm 3 1).trans (by decide), cut', ?_, ?_⟩
  · exact partitioned.mpr ⟨2, by decide, 0, by decide, by decide, cut⟩
  · exact (mended [3, 1, 2] (by decide) (by decide) rfl).2

end Links

end LedgerDrill.Cluster
