import LedgerDrill.Proofs.Cluster.Recovery
import LedgerDrill.Scenario

namespace LedgerDrill

def Scenario.nodes : Scenario → List Nat
  | .baseline => []
  | .partition node | .restart node | .crash node => [node]
  | .edge a b => [a, b]

/-- A node such that all others stay up and linked to each other while the scenario lasts. -/
def Scenario.pivot? : Scenario → Option Nat
  | .baseline => none
  | .partition node | .restart node | .crash node => some node
  | .edge _ b => some b

namespace Cluster

variable {c c' : Cluster} {node victim : Nat} {scenario : Scenario}

structure Whole (c : Cluster) : Prop where
  up : ∀ node < c.size, c.holds node (·.up) = true
  cuts : c.links.cuts = []

theorem Whole.alike (whole : c.Whole) (alike : Alike c c') : c'.Whole where
  up node bound := by
    rw [alike.up]
    exact whole.up node (alike.size ▸ bound)
  cuts := by rw [alike.links, whole.cuts]

theorem Whole.linked (whole : c.Whole) (a b : Nat) : c.links.connected a b = true :=
  Links.connected_of_not_mem (whole.cuts ▸ List.not_mem_nil)

theorem Whole.connected (whole : c.Whole) : c.Connected := ⟨whole.up, fun a _ b _ => whole.linked a b⟩

/-! ## Links that are cut -/

namespace Links

variable {l : Links} {a b x y : Nat}

theorem connected_of_cut (intact : l.cuts = []) (other : link x y ≠ link a b) : (l.cut a b).connected x y = true := by
  refine connected_of_not_mem fun member => ?_
  rcases mem_cuts_cut.mp member with before | ⟨-, same⟩
  · rw [intact] at before
    cases before
  · exact other same

theorem connected_of_cut_elsewhere (intact : l.cuts = []) (apart : y ≠ a) (apart' : y ≠ b) :
    (l.cut a b).connected x y = true := by
  refine connected_of_cut intact fun same => ?_
  rcases link_eq_link_iff.mp same with ⟨-, rfl⟩ | ⟨rfl, -⟩
  · exact apart' rfl
  · exact apart rfl

theorem connected_of_cut_beside (intact : l.cuts = []) (apart : x ≠ b) (apart' : y ≠ b) :
    (l.cut a b).connected x y = true := by
  refine connected_of_cut intact fun same => ?_
  rcases link_eq_link_iff.mp same with ⟨-, rfl⟩ | ⟨-, rfl⟩
  · exact apart' rfl
  · exact apart rfl

theorem connected_of_isolated_elsewhere (intact : l.cuts = []) (size : Nat) (apart : x ≠ a) (apart' : y ≠ a) :
    (l.isolate size a).connected x y = true := by
  refine connected_of_not_mem fun member => ?_
  rcases mem_cuts_isolate.mp member with before | ⟨peer, -, -, same⟩
  · rw [intact] at before
    cases before
  · rcases link_eq_link_iff.mp same with ⟨rfl, -⟩ | ⟨rfl, -⟩
    · exact apart rfl
    · exact apart' rfl

theorem cuts_restore_cut (intact : l.cuts = []) : ((l.cut a b).restore a b).cuts = [] := by
  refine List.eq_nil_iff_forall_not_mem.mpr fun cut member => ?_
  obtain ⟨left, other⟩ := mem_cuts_restore.mp member
  rcases mem_cuts_cut.mp left with before | ⟨-, same⟩
  · rw [intact] at before
    cases before
  · exact other same

theorem cuts_heal_isolate (intact : l.cuts = []) (size : Nat) : ((l.isolate size a).heal size a).cuts = [] := by
  refine List.eq_nil_iff_forall_not_mem.mpr fun cut member => ?_
  obtain ⟨left, other⟩ := mem_cuts_heal.mp member
  rcases mem_cuts_isolate.mp left with before | ⟨peer, bound, -, same⟩
  · rw [intact] at before
    cases before
  · exact other peer bound same

end Links

/-! ## While a scenario lasts -/

theorem inject_fault {fault : Fault} (known : ∀ node ∈ faultNodes fault, node < c.size) :
    (Scenario.inject (some fault) c).1 = c.applyFault fault := by
  simp only [Scenario.inject, FaultTarget.inject, inject_eq known]

theorem Whole.mem_reachable_stopped (whole : c.Whole) {crash : Bool} (up : c.holds node (·.up) = true)
    (apart : node ≠ victim) (origin : Nat) : node ∈ (c.stopNode victim crash).reachable origin := by
  have untouched : Untouched node c (c.stopNode victim crash) := c.untouched_modify apart.symm _
  exact mem_reachable.mpr ⟨untouched.power.trans up, whole.linked origin node⟩

theorem Whole.central (whole : c.Whole) (known : ∀ node ∈ scenario.nodes, node < c.size) (bound : node < c.size)
    (apart : node ∉ scenario.nodes) : Central (Scenario.inject scenario.startFault? c).1 node := by
  intro origin up quorum
  have up' := whole.up node bound
  cases scenario with
  | baseline => exact whole.connected.central bound origin up quorum
  | edge a b =>
      obtain ⟨apartA, apartB⟩ : node ≠ a ∧ node ≠ b := by simpa [Scenario.nodes] using apart
      have started : (Scenario.inject (Scenario.edge a b).startFault? c).1 = c.applyFault (.cut a b) :=
        inject_fault known
      rw [started]
      exact mem_reachable.mpr ⟨up', Links.connected_of_cut_elsewhere whole.cuts apartA apartB⟩
  | restart victim =>
      have started : (Scenario.inject (Scenario.restart victim).startFault? c).1 = c.stopNode victim false :=
        inject_fault known
      rw [started]
      exact whole.mem_reachable_stopped up' (fun same => apart (List.mem_singleton.mpr same)) origin
  | crash victim =>
      have started : (Scenario.inject (Scenario.crash victim).startFault? c).1 = c.stopNode victim true :=
        inject_fault known
      rw [started]
      exact whole.mem_reachable_stopped up' (fun same => apart (List.mem_singleton.mpr same)) origin
  | partition victim =>
      have other : node ≠ victim := fun same => apart (List.mem_singleton.mpr same)
      have member := known victim List.mem_cons_self
      have several : 2 ≤ c.size := by omega
      have started : (Scenario.inject (Scenario.partition victim).startFault? c).1 = c.applyFault (.isolate victim) :=
        inject_fault known
      have itself : (Scenario.partition victim).unreachable = [victim] := rfl
      obtain ⟨c', injected, cutOff⟩ := cutOff_start itself several member
      rw [injected] at started
      rw [injected] at up quorum ⊢
      -- The node that is cut off has no majority, so the change is made elsewhere.
      have away : origin ≠ victim := by
        rintro rfl
        obtain ⟨r, found, isUp⟩ := holds_eq_true.mp up
        rw [cutOff.hasQuorum (isOpen_eq_true.mpr ⟨r, found, isUp, rfl⟩)] at quorum
        contradiction
      rw [started]
      exact mem_reachable.mpr ⟨up', Links.connected_of_isolated_elsewhere whole.cuts c.size away other⟩

theorem Whole.reaches (whole : c.Whole) (known : ∀ node ∈ scenario.nodes, node < c.size) {peer : Nat}
    (bound : peer < c.size) (apart : node ∉ scenario.pivot?) (apart' : peer ∉ scenario.pivot?) :
    peer ∈ (Scenario.inject scenario.startFault? c).1.reachable node := by
  have up := whole.up peer bound
  cases scenario with
  | baseline => exact mem_reachable.mpr ⟨up, whole.linked node peer⟩
  | edge a b =>
      have started : (Scenario.inject (Scenario.edge a b).startFault? c).1 = c.applyFault (.cut a b) :=
        inject_fault known
      rw [started]
      refine mem_reachable.mpr ⟨up, Links.connected_of_cut_beside whole.cuts ?_ ?_⟩
      · exact fun same => apart (congrArg some same.symm)
      · exact fun same => apart' (congrArg some same.symm)
  | restart victim =>
      have started : (Scenario.inject (Scenario.restart victim).startFault? c).1 = c.stopNode victim false :=
        inject_fault known
      rw [started]
      exact whole.mem_reachable_stopped up (fun same => apart' (congrArg some same.symm)) node
  | crash victim =>
      have started : (Scenario.inject (Scenario.crash victim).startFault? c).1 = c.stopNode victim true :=
        inject_fault known
      rw [started]
      exact whole.mem_reachable_stopped up (fun same => apart' (congrArg some same.symm)) node
  | partition victim =>
      have started : (Scenario.inject (Scenario.partition victim).startFault? c).1 = c.applyFault (.isolate victim) :=
        inject_fault known
      rw [started]
      refine mem_reachable.mpr ⟨up, Links.connected_of_isolated_elsewhere whole.cuts c.size ?_ ?_⟩
      · exact fun same => apart (congrArg some same.symm)
      · exact fun same => apart' (congrArg some same.symm)

theorem Whole.restarted (whole : c.Whole) {crash : Bool} (member : victim < c.size)
    (alike : Alike (c.stopNode victim crash) c') : (inject (.start victim) c').1.Whole := by
  have size : c'.size = c.size := alike.size.trans (size_modify c victim _)
  refine ⟨fun node bound => ?_, ?_⟩
  · rw [size_inject, size] at bound
    by_cases same : node = victim
    · rw [same]
      exact up_start (size ▸ member)
    · have untouched : Untouched node c (c.stopNode victim crash) := c.untouched_modify (Ne.symm same) _
      refine (improves_inject ⟨victim, Or.inl rfl⟩).up node ?_
      exact (alike.up node).trans (untouched.power.trans (whole.up node bound))
  · have links : c'.links = c.links := alike.links
    rw [inject_eq fun node only => List.mem_singleton.mp only ▸ size ▸ member]
    exact (congrArg Links.cuts links).trans whole.cuts

theorem Whole.relinked (whole : c.Whole) {cut mended : Links} (alike : Alike { c with links := cut } c')
    (intact : mended.cuts = []) : Whole { c' with links := mended } :=
  ⟨fun node bound => (alike.up node).trans (whole.up node (alike.size ▸ bound)), intact⟩

theorem Whole.mended (whole : c.Whole) (known : ∀ node ∈ scenario.nodes, node < c.size)
    (alike : Alike (Scenario.inject scenario.startFault? c).1 c') :
    (Scenario.inject scenario.stopFault? c').1.Whole := by
  cases scenario with
  | baseline => exact whole.alike alike
  | restart victim =>
      have started : (Scenario.inject (Scenario.restart victim).startFault? c).1 = c.stopNode victim false :=
        inject_fault known
      exact whole.restarted (known victim List.mem_cons_self) (started ▸ alike)
  | crash victim =>
      have started : (Scenario.inject (Scenario.crash victim).startFault? c).1 = c.stopNode victim true :=
        inject_fault known
      exact whole.restarted (known victim List.mem_cons_self) (started ▸ alike)
  | edge a b =>
      have started : (Scenario.inject (Scenario.edge a b).startFault? c).1 = c.applyFault (.cut a b) :=
        inject_fault known
      rw [started] at alike
      have size : c'.size = c.size := alike.size
      have links : c'.links = c.links.cut a b := alike.links
      have stopped : (Scenario.inject (Scenario.edge a b).stopFault? c').1 = c'.applyFault (.restore a b) :=
        inject_fault (size.symm ▸ known)
      rw [stopped]
      refine whole.relinked alike ?_
      rw [links]
      exact Links.cuts_restore_cut whole.cuts
  | partition victim =>
      have started : (Scenario.inject (Scenario.partition victim).startFault? c).1 = c.applyFault (.isolate victim) :=
        inject_fault known
      rw [started] at alike
      have size : c'.size = c.size := alike.size
      have links : c'.links = c.links.isolate c.size victim := alike.links
      have stopped : (Scenario.inject (Scenario.partition victim).stopFault? c').1 = c'.applyFault (.heal victim) :=
        inject_fault (size.symm ▸ known)
      rw [stopped]
      refine whole.relinked alike ?_
      rw [links, size]
      exact Links.cuts_heal_isolate whole.cuts c.size

/-! ## What a scenario leaves alone -/

theorem size_scenario (fault : Option Fault) (c : Cluster) : (Scenario.inject fault c).1.size = c.size := by
  cases fault with
  | none => rfl
  | some fault => exact size_inject fault c

theorem rowed_scenario {rows : Nat → Prop} (rowed : c.Rowed rows) (fault : Option Fault) :
    (Scenario.inject fault c).1.Rowed rows := by
  cases fault with
  | none => exact rowed
  | some fault => exact rowed.inject fault

theorem isFresh_start (fresh : c.isFresh node = true) (apart : node ∉ scenario.nodes) :
    (Scenario.inject scenario.startFault? c).1.isFresh node = true := by
  cases scenario with
  | baseline => exact fresh
  | partition | edge | restart => exact (isFresh_inject _ fresh).resolve_right nofun
  | crash victim =>
      refine (isFresh_inject _ fresh).resolve_right fun same => apart ?_
      cases same
      exact List.mem_cons_self

theorem isFresh_stop (fresh : c.isFresh node = true) :
    (Scenario.inject scenario.stopFault? c).1.isFresh node = true := by
  cases scenario with
  | baseline => exact fresh
  | partition | edge | restart | crash => exact (isFresh_inject _ fresh).resolve_right nofun

end Cluster

end LedgerDrill
