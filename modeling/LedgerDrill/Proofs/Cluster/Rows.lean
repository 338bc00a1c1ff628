import LedgerDrill.Proofs.Cluster.Balance
import LedgerDrill.Proofs.Cluster.Freshness

namespace LedgerDrill.Cluster

variable {c c' c'' : Cluster} {s : Session} {node epoch : Nat} {rows : Nat → Prop} {call : Call}
variable {calls : List Call} {w : Waiting}

def Rowed (rows : Nat → Prop) (c : Cluster) : Prop :=
  ∀ r ∈ c.replicas, r.stale = false → ∀ uid, rows uid → r.accounts.contains uid = true

theorem Keeps.rowed (keeps : Keeps c c') (rowed : c.Rowed rows) : c'.Rowed rows := by
  intro r' member fresh uid row
  obtain ⟨node, found'⟩ := List.mem_iff_getElem?.mp member
  obtain ⟨origin, r, found, same, stale⟩ := keeps.replicas node r' found'
  have fresh' : r.stale = false := Bool.eq_false_iff.mpr fun isStale => by
    rw [stale isStale] at fresh
    contradiction
  exact same ▸ rowed r (List.mem_of_getElem? found) fresh' uid row

theorem Rowed.inject (rowed : c.Rowed rows) (fault : Fault) : (inject fault c).1.Rowed rows :=
  (keeps_inject fault c).rowed rowed

theorem Rowed.replicate (rowed : c.Rowed rows) (origin : Nat) (writes : List Write) :
    (c.replicate origin (·.apply writes)).Rowed rows := by
  intro r' member fresh uid row
  obtain ⟨node, found⟩ := List.mem_iff_getElem?.mp member
  simp only [Cluster.replicate, List.getElem?_mapIdx] at found
  obtain ⟨r, before, rfl⟩ := Option.map_eq_some_iff.mp found
  split at fresh
  · next reached =>
      rw [if_pos reached, Accounts.contains_apply]
      simp only [Bool.and_eq_true, Bool.not_eq_true'] at reached
      exact rowed r (List.mem_of_getElem? before) reached.2 uid row
  · contradiction

theorem Rowed.accountsOf (rowed : c.Rowed rows) (served : c.serve node epoch = .ok c') {uid : Nat}
    (row : rows uid) : (c'.accountsOf node).contains uid = true := by
  obtain ⟨r, found, fresh⟩ := serve_fresh served
  rw [accountsOf_eq found]
  exact (keeps_serve served).rowed rowed r (List.mem_of_getElem? found) fresh uid row

structure Steady (c c' : Cluster) : Prop where
  served : Served c c'
  rowed : ∀ rows, c.Rowed rows → c'.Rowed rows

theorem Steady.refl (c : Cluster) : Steady c c := ⟨Served.refl c, fun _ => id⟩

theorem Steady.trans (first : Steady c c') (second : Steady c' c'') : Steady c c'' where
  served := first.served.trans second.served
  rowed rows := second.rowed rows ∘ first.rowed rows

theorem steady_call (c : Cluster) (ordinary : call.isOrdinary = true) : Steady c (c.call call).1 where
  served := served_call c (Call.isFault_of_isOrdinary ordinary)
  rowed rows rowed := by
    by_cases silent : call.change? = none
    · exact (keeps_call silent).rowed rowed
    · cases call <;> simp only [Call.change?, not_true_eq_false, reduceCtorEq] at silent
      case createAccounts => cases ordinary
      case commitPrepared epoch id writes =>
        simp only [Cluster.call]
        rcases commitPrepared_cases c epoch id writes with ⟨_, eq⟩ | ⟨_, eq⟩ | ⟨_, _, _, eq⟩ <;> rw [eq]
        · exact rowed
        · exact (keeps_forget c id).rowed rowed
        · exact ((keeps_forget c id).rowed rowed).replicate id.node writes

theorem steady_after (l : Ledger) (ordinary : ∀ call ∈ calls, call.isOrdinary = true) :
    Steady l.cluster (l.after calls).cluster :=
  Ledger.after_related Steady.refl Steady.trans (fun c call member => steady_call c (ordinary call member)) l

theorem steady_resume (notCreate : ∀ n, w ≠ .reaching (.create n)) (c : Cluster) (s : Session) :
    Steady c (resumeStatement w c s).store := by
  have made : (Ledger.after ⟨c, []⟩ (w.calls c s)).cluster = (resumeStatement w c s).store :=
    Ledger.cluster_calls w
  exact made ▸ steady_after ⟨c, []⟩ fun _ => isOrdinary_calls notCreate

theorem steady_start (statement : Statement) (c : Cluster) (s : Session) :
    Steady c (startStatement statement c s).store := by
  have made : (Ledger.after ⟨c, []⟩ (startCalls s statement)).cluster = (startStatement statement c s).store :=
    Ledger.cluster_startCalls statement
  exact made ▸ steady_after ⟨c, []⟩ fun _ member =>
    Call.isOrdinary_of_isInquiry (isInquiry_startCalls member)

end LedgerDrill.Cluster
