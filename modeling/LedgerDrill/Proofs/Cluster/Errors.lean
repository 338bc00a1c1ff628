import LedgerDrill.Proofs.Cluster.Prepared
import LedgerDrill.Proofs.Outcome.Vocabulary

namespace LedgerDrill.Cluster
open Outcome

variable {c c' : Cluster} {s : Session} {node epoch : Nat} {id : TransactionId} {e : StoreError}
variable {writes : List Write} {reply : Reply} {w : Waiting}

inductive Expected (node : Nat) : StoreError → Prop
  | refused : Expected node (.connectFailed node "Connection refused")
  | expired : Expected node (.connectFailed node "timeout expired")
  | closed : Expected node .connectionClosed
  | noQuorum {id : TransactionId} (home : id.node = node) :
      Expected node (abortError id "cluster has no quorum")
  | lostQuorum {id : TransactionId} (home : id.node = node) :
      Expected node (abortError id "cluster lost quorum during commit")
  | apart :
      Expected node (.query ("node " ++ (node + 1).repr ++ " is in recovery: " ++ "no quorum to resynchronize"))
  | noDonor :
      Expected node (.query ("node " ++ (node + 1).repr ++ " is in recovery: " ++ "no fresh donor reachable"))

/-! ## Where they come from -/

theorem expected_openSession (bound : node < c.size) (failed : c.openSession node = .error e) :
    Expected node e := by
  have found : c.replicas[node]? = some c.replicas[node] := List.getElem?_eq_getElem bound
  simp only [openSession, found] at failed
  split at failed
  · cases failed
  · cases failed
    exact .refused

theorem expected_serve (failed : c.serve node epoch = .error e) : Expected node e := by
  unfold serve refresh at failed
  split at failed
  · split at failed
    · cases failed
    · simp only at failed
      split at failed
      · cases failed; exact .apart
      · split at failed
        · cases failed; exact .noDonor
        · cases failed
  · cases failed; exact .closed

theorem expected_prepare (failed : c.prepare epoch id = .error e) : Expected id.node e := by
  rcases bind_eq_error failed with served | ⟨c', _, refused⟩
  · exact expected_serve served
  · split at refused
    · cases refused
    · cases refused; exact .noQuorum rfl

theorem expected_commitPrepared (failed : (c.commitPrepared epoch id writes).2 = .error e) :
    Expected id.node e := by
  rcases commitPrepared_cases c epoch id writes with ⟨_, eq⟩ | ⟨_, eq⟩ | ⟨_, _, _, eq⟩ <;> rw [eq] at failed
  · cases failed; exact .closed
  · cases failed; exact .lostQuorum rfl
  · cases failed

theorem expected_finishCommit {result : Except StoreError Unit}
    (known : ∀ e, result = .error e → Expected id.node e)
    (failed : (finishCommit c s id reply result).next = .answered (.error e)) : Expected id.node e := by
  cases result with
  | ok done => cases failed
  | error e' => cases failed; exact known _ rfl

theorem expected_puts {torn : Bool} {turn : SessionTurn} (puts : Puts c s id reply torn writes turn)
    (failed : turn.next = .answered (.error e)) : Expected id.node e := by
  cases puts with
  | nothing | next => cases failed
  | last | whole => exact expected_finishCommit (fun e => expected_commitPrepared) failed

theorem expected_commit (own : w.id? = some id)
    (failed : (resumeStatement w c s).next = .answered (.error e)) : Expected id.node e := by
  have known := resumes w c s
  generalize resumeStatement w c s = turn at known failed
  cases known with
  | reaching => cases own
  | refused error =>
      cases own
      cases failed
      exact expected_prepare error
  | prepared => cases failed
  | goesOn _ puts | applying puts | tearing puts =>
      cases own
      exact expected_puts puts failed

theorem id?_puts {torn : Bool} {turn : SessionTurn} {latency : Latency} (puts : Puts c s id reply torn writes turn)
    (next : turn.next = .waiting latency w) : w.id? = some id := by
  cases puts with
  | nothing => cases next
  | next =>
      cases next
      rfl
  | last | whole =>
      rw [finishCommit_next] at next
      cases next

theorem id?_resume {latency : Latency} {w' : Waiting} (own : w.id? = some id)
    (next : (resumeStatement w c s).next = .waiting latency w') : w'.id? = some id := by
  have known := resumes w c s
  generalize resumeStatement w c s = turn at known next
  cases known with
  | reaching => cases own
  | refused => cases next
  | prepared =>
      cases own
      cases next
      rfl
  | goesOn _ puts | applying puts | tearing puts =>
      cases own
      exact id?_puts puts next

/-! ## Their labels -/

theorem startsName_text (id : TransactionId) (rest : List Char) :
    Label.startsName (id.text.toList ++ rest) = true := by
  have split : id.text.toList = "MTM-".toList ++ (id.node.repr.toList ++ ("-".toList ++ (id.number.repr.toList ++
      ("-".toList ++ id.epoch.repr.toList)))) := by
    simp only [TransactionId.text, String.toList_append, List.append_assoc]
  rw [split]
  cases id.node.repr.toList <;> rfl

theorem notMem_text {c : Char} (noDigit : c.isDigit = false) (absent : c ∉ "MTM-".toList) (id : TransactionId) :
    c ∉ id.text.toList := by
  have digits := Label.notMem_repr noDigit
  have dash : c ∉ "-".toList := fun member => absent (List.mem_of_mem_drop (i := 3) member)
  simp only [TransactionId.text, String.toList_append, List.mem_append, not_or]
  exact ⟨⟨⟨⟨⟨absent, digits _⟩, dash⟩, digits _⟩, dash⟩, digits _⟩

theorem ofText_abortError (id : TransactionId) {reason : String} (noClose : ')' ∉ reason.toList)
    (oneLine : '\n' ∉ reason.toList) (last : reason.toList.getLast?.any (!Text.isBlank ·) = true) :
    Label.ofText (abortError id reason).message =
      "Transaction <censored> is aborted on node " ++ (id.node + 1).repr ++ ": " ++ reason := by
  have digits (n : Nat) : '\n' ∉ n.repr.toList := Label.notMem_repr (by decide) n
  have name : '\n' ∉ id.text.toList := notMem_text (by decide) (by decide) id
  have close : ')' ∉ (id.node + 1).repr.toList := Label.notMem_repr (by decide) _
  exact Label.ofText_abort (startsName_text id) ⟨close, noClose⟩ ⟨name, digits _, digits _, oneLine⟩ last

theorem mem_vocabulary_of_around (char : Char) {before middle reason : String}
    (listed : (before, middle ++ reason) ∈ numbered)
    (first : before.toList.head?.any (!Text.isBlank ·) = true)
    (last : (middle ++ reason).toList.getLast?.any (!Text.isBlank ·) = true)
    (marks : char ∈ Label.abortMarker) (noDigit : char.isDigit = false) (absent : char ∉ before.toList)
    (absent' : char ∉ (middle ++ reason).toList) :
    Label.ofText (before ++ (node + 1).repr ++ middle ++ reason) ∈ vocabulary node := by
  rw [String.append_assoc, Label.ofText_around (node + 1) first last marks noDigit absent absent']
  exact List.mem_cons_of_mem _ (List.mem_cons_of_mem _ (List.mem_map_of_mem listed))

theorem mem_vocabulary_of_abort {reason : String}
    (listed : ("Transaction <censored> is aborted on node ", ": " ++ reason) ∈ numbered)
    (noClose : ')' ∉ reason.toList) (oneLine : '\n' ∉ reason.toList)
    (last : reason.toList.getLast?.any (!Text.isBlank ·) = true) :
    Label.ofText (abortError id reason).message ∈ vocabulary id.node := by
  rw [ofText_abortError id noClose oneLine last, String.append_assoc]
  exact List.mem_cons_of_mem _ (List.mem_cons_of_mem _ (List.mem_map_of_mem listed))

theorem ofText_connectionClosed :
    Label.ofText StoreError.connectionClosed.message = "server closed the connection unexpectedly" := by
  decide +kernel

theorem Expected.mem_vocabulary (expected : Expected node e) : Label.ofText e.message ∈ vocabulary node := by
  cases expected with
  | refused | expired | apart =>
      refine mem_vocabulary_of_around 'b' (by decide +kernel) ?_ ?_ (by decide +kernel) (by decide) ?_ ?_
      all_goals
        repeat rw [String.toList_append]
        repeat rw [String.toList_ofList]
        decide
  | noDonor =>
      refine mem_vocabulary_of_around 't' (by decide +kernel) ?_ ?_ (by decide +kernel) (by decide) ?_ ?_
      all_goals
        repeat rw [String.toList_append]
        repeat rw [String.toList_ofList]
        decide
  | closed => exact ofText_connectionClosed ▸ List.mem_cons_of_mem _ List.mem_cons_self
  | noQuorum home | lostQuorum home =>
      subst home
      exact mem_vocabulary_of_abort (by decide +kernel) (by decide +kernel) (by decide +kernel) (by decide +kernel)

theorem nameless_of_mem_vocabulary {label : String} (member : label ∈ vocabulary node) (id : TransactionId) :
    ¬ id.text.toList <:+: label.toList := by
  intro named
  have letter : 'M' ∈ id.text.toList := by
    simp only [TransactionId.text, String.toList_append, List.mem_append]
    exact Or.inl (Or.inl (Or.inl (Or.inl (Or.inl (by decide)))))
  exact notMem_of_mem_vocabulary member (named.subset letter)

end LedgerDrill.Cluster
