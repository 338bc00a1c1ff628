import LedgerDrill.Client
import LedgerDrill.Proofs.Cluster.Progress
import LedgerDrill.Proofs.Experiment.Attribution
import LedgerDrill.Proofs.Timeline

namespace LedgerDrill
open Cluster (Session Waiting)

def Statement.isOwn : Statement → Bool
  | .create _ | .digest | .prepared => true
  | _ => false

namespace Cluster

theorem execute_own {statement : Statement} (own : statement.isOwn = true) (c : Cluster) (s : Session) :
    ∃ c' s' answer, execute c s statement = answered c' s' answer := by
  have known := executes c s statement
  generalize execute c s statement = turn at known
  cases known with
  | refused | offline | lost | begins | misses | buffers | totals | digests | creates | counts | rollsBack
  | ends => exact ⟨_, _, _, rfl⟩
  | commits => cases own

end Cluster

namespace Timeline
open Workload Cluster

section

variable {ι : Type} {t : Timeline ι Cluster Session Waiting}

theorem advance_alone {name : ι} {flight : Flight Session Waiting} (alone : t.flights = [(name, flight)])
    {shared : Shared Cluster} {landing : Landing Session}
    (lands : t.shared.resume flight.task flight.expired t.dice.roll.1 stopwatch = (shared, .landed landing)) :
    (t.advance flight.wake).shared = shared ∧ (t.advance flight.wake).flights = [] ∧
      (t.advance flight.wake).landed = t.landed ++ [(name, landing)] := by
  have first : earliest? t.flights = some ((name, flight), []) := alone ▸ rfl
  fun_cases Timeline.advance t flight.wake with
  | case1 none => cases first.symm.trans none
  | case3 _ _ _ found early =>
      cases first.symm.trans found
      exact absurd (Nat.le_refl _) early
  | case2 _ _ _ found due =>
      cases first.symm.trans found
      rw [wake_eq, lands, advance_of_no_flights rfl]
      exact ⟨rfl, rfl, rfl⟩

theorem resume_reaching {shared : Shared Cluster} {s s' : Session} {statement : Statement} {c : Cluster}
    {answer : Answer} (executed : execute shared.store s statement = answered c s' answer) (expired : Bool)
    (random : Nat) (now : Outcome.Instant) :
    shared.resume (.statement s (.reaching statement)) expired random now =
      ({ shared with store := c }, .landed (.statement s' answer)) := by
  change (({ shared with store := (execute shared.store s statement).store } : Shared Cluster),
    Course.ofStatement (execute shared.store s statement)) = _
  rw [executed]
  rfl

theorem await_reaching [DecidableEq ι] {name : ι} {s : Session} {statement : Statement} {wake : Nat} {expired : Bool}
    (waits : t.flight? name = some ⟨wake, expired, .statement s (.reaching statement)⟩)
    (left : (t.advance wake).flight? name = none) : t.await name = t.advance wake := by
  rw [await, waits]
  change goOn name (4 + 1) t = _
  rw [goOn, waits]
  change goOn name (3 + 1) (t.advance wake) = _
  rw [goOn, left]

theorem await_alone [DecidableEq ι] {name : ι} {s s' : Session} {statement : Statement} {wake : Nat}
    {expired : Bool} (alone : t.flights = [(name, ⟨wake, expired, .statement s (.reaching statement)⟩)])
    {c : Cluster} {answer : Answer} (executed : execute t.shared.store s statement = answered c s' answer) :
    (t.await name).shared.store = c ∧ (t.await name).flights = [] ∧
      (t.await name).landed = t.landed ++ [(name, .statement s' answer)] := by
  obtain ⟨shared, ended, landed⟩ := advance_alone alone (resume_reaching executed _ _ _)
  dsimp only at shared ended landed
  have waits : t.flight? name = some ⟨wake, expired, .statement s (.reaching statement)⟩ := by
    simp [flight?, alone]
  have absent : (t.advance wake).flight? name = none := by
    simp [flight?, ended]
  rw [await_reaching waits absent]
  exact ⟨congrArg Shared.store shared, ended, landed⟩

end

/-- Nobody waits, and nobody has left anything. -/
structure Quiet (p : Workplace Cluster Session Waiting) : Prop where
  flights : p.flights = []
  landed : p.landed = []

variable {p : Workplace Cluster Session Waiting} {statement : Statement} {node : Nat}

theorem Quiet.pause (quiet : p.Quiet) (wait : Wait) : (p.pause wait).Quiet ∧ (p.pause wait).shared = p.shared := by
  obtain ⟨shared, flights, landed⟩ := pause_of_no_flights quiet.flights wait
  exact ⟨⟨flights, landed.trans quiet.landed⟩, shared⟩

theorem Quiet.connect (quiet : p.Quiet) (node : Nat) : ∃ p' : Workplace Cluster Session Waiting, p'.Quiet ∧
    p'.shared = p.shared ∧ p.connect node = (p', (Store.accept p.shared.store node).2) := by
  unfold Timeline.connect
  cases latency : (Store.dial p.shared.store node).2 with
  | none =>
      simp only [latency]
      exact ⟨p, quiet, rfl, rfl⟩
  | some latency' =>
      obtain ⟨paused, shared⟩ := quiet.pause (.roundTrip latency')
      simp only [latency]
      refine ⟨p.pause (.roundTrip latency'), paused, shared, ?_⟩
      have same : (Store.accept p.shared.store node).2 =
          (Store.accept (p.pause (.roundTrip latency')).shared.store node).2 := by rw [shared]
      rw [same]
      rfl

theorem launchStatement_own (own : statement.isOwn = true) {c : Cluster} {s : Session}
    (accepted : (Store.accept c node).2 = .ok s) (p : Workplace Cluster Session Waiting) :
    p.launchStatement none statement s =
      p.place none (.waiting (.roundTrip p.shared.store.settings.roundTrip) (.statement s (.reaching statement))) := by
  obtain ⟨-, unclosed, idle⟩ := Cluster.accept_ok accepted
  have notCommit : statement ≠ .commit := by
    rintro rfl
    cases own
  have able : s.status ≠ .inError := by
    rw [idle]
    rintro ⟨⟩
  change place { p with shared := { p.shared with store := (startStatement statement p.shared.store s).store } }
    none (.ofStatement (startStatement statement p.shared.store s)) = _
  rw [start_of_able unclosed able notCommit p.shared.store]
  rfl

theorem Quiet.ask (quiet : p.Quiet) (own : statement.isOwn = true) {s : Session}
    (accepted : (Store.accept p.shared.store node).2 = .ok s) {c : Cluster} {s' : Session} {answer : Answer}
    (executed : execute p.shared.store s statement = answered c s' answer) :
    ∃ p' : Workplace Cluster Session Waiting, Client.ask p node statement = (p', answer) ∧ p'.Quiet ∧
      p'.shared.store = c := by
  obtain ⟨p₁, quiet₁, shared₁, connected⟩ := quiet.connect node
  have launched := launchStatement_own own accepted p₁
  obtain ⟨dice, wake, expired, -, placed⟩ := p₁.place_waiting none
    (.roundTrip p₁.shared.store.settings.roundTrip) (.statement s (.reaching statement))
  have alone : (p₁.launchStatement none statement s).flights =
      [(none, ⟨wake, expired, .statement s (.reaching statement)⟩)] := by
    rw [launched, placed, quiet₁.flights]
    rfl
  have left : (p₁.launchStatement none statement s).landed = p₁.landed := by rw [launched, placed]
  have executed' : execute (p₁.launchStatement none statement s).shared.store s statement = answered c s' answer := by
    rw [launched, shared_place, shared₁]
    exact executed
  obtain ⟨store, ended, landed⟩ := await_alone alone executed'
  rw [left, quiet₁.landed, List.nil_append] at landed
  rw [accepted] at connected
  refine ⟨(((p₁.launchStatement none statement s).await none).collect none).2, ?_, ⟨ended, ?_⟩, store⟩
  · simp [Client.ask, connected, Timeline.collect, landed]
  · simp [Timeline.collect, landed]

theorem Quiet.refused (quiet : p.Quiet) (statement : Statement) {e : StoreError}
    (refused : (Store.accept p.shared.store node).2 = .error e) :
      ∃ p' : Workplace Cluster Session Waiting, Client.ask p node statement = (p', .error e) ∧ p'.Quiet ∧
        p'.shared.store = p.shared.store := by
  obtain ⟨p', quiet', shared, connected⟩ := quiet.connect node
  refine ⟨p', ?_, quiet', congrArg Shared.store shared⟩
  simp only [Client.ask, connected, refused]

end Timeline

/-! ## Questions to all nodes -/

namespace Client
open Workload Cluster

variable {P : Cluster → Prop} {Q : Reply → Prop} {statement : Statement} {reply : Reply}
variable {c : Client Cluster Session Waiting}

theorem askAll_cons {node : Nat} {rest : List Nat} {context : String} {p : Workplace Cluster Session Waiting}
    {answer : Answer} (asked : ask c.workplace node statement = (p, answer)) :
    askAll statement context (node :: rest) c = match answer with
      | .error e => (.error (.store (context ++ " of node " ++ (node + 1).repr) e), { c with workplace := p })
      | .ok reply => match askAll statement context rest { c with workplace := p } with
        | (.ok replies, c') => (.ok (reply :: replies), c')
        | (.error e, c') => (.error e, c') := by
  rw [askAll, Action.bind_eq]
  simp only [asked]
  cases answer with
  | error e => rfl
  | ok reply =>
      simp only [Except.mapError, Action.bind_eq]
      generalize askAll statement context rest { c with workplace := p } = later
      obtain ⟨result, c'⟩ := later
      cases result <;> rfl

theorem askAll_ok (own : statement.isOwn = true)
    (serves : ∀ (c : Cluster) (node : Nat), P c → node < c.size → ∃ s c', (Store.accept c node).2 = .ok s ∧
      execute c s statement = answered c' s (.ok reply) ∧ P c' ∧ c'.size = c.size)
    (context : String) (nodes : List Nat) (quiet : c.workplace.Quiet) (known : P c.store)
    (bounds : ∀ node ∈ nodes, node < c.store.size) :
    ∃ c', askAll statement context nodes c = (.ok (.replicate nodes.length reply), c') ∧ c'.workplace.Quiet ∧
      P c'.store ∧ c'.store.size = c.store.size := by
  induction nodes generalizing c with
  | nil => exact ⟨c, rfl, quiet, known, rfl⟩
  | cons node rest ih =>
      obtain ⟨s, served, accepted, executed, known', size⟩ := serves c.store node known (bounds node List.mem_cons_self)
      obtain ⟨p, asked, quiet', rfl⟩ := quiet.ask own accepted executed
      have bounds' : ∀ other ∈ rest, other < p.shared.store.size := fun other member =>
        size ▸ bounds other (List.mem_cons_of_mem _ member)
      obtain ⟨c', answers, quiet'', known'', size'⟩ := ih (c := { c with workplace := p }) quiet' known' bounds'
      refine ⟨c', ?_, quiet'', known'', size'.trans size⟩
      rw [askAll_cons asked, answers]
      rfl

theorem askAll_any (own : statement.isOwn = true)
    (tells : ∀ (c : Cluster) (s : Session) (c' : Cluster) (s' : Session) (answer : Answer), P c →
      execute c s statement = answered c' s' answer → P c' ∧ ∀ reply, answer = .ok reply → Q reply)
    (context : String) (nodes : List Nat) (quiet : c.workplace.Quiet) (known : P c.store) :
    ∃ result c', askAll statement context nodes c = (result, c') ∧ c'.workplace.Quiet ∧ P c'.store ∧
      ∀ replies, result = .ok replies → ∀ reply ∈ replies, Q reply := by
  induction nodes generalizing c with
  | nil =>
      refine ⟨_, c, rfl, quiet, known, ?_⟩
      rintro _ ⟨⟩ _ member
      cases member
  | cons node rest ih =>
      cases accepted : (Store.accept c.store node).2 with
      | error e =>
          obtain ⟨p, asked, quiet', store⟩ := quiet.refused statement accepted
          have known' : P p.shared.store := store.symm ▸ known
          refine ⟨_, { c with workplace := p }, askAll_cons asked, quiet', known', ?_⟩
          rintro _ ⟨⟩
      | ok s =>
          obtain ⟨c', s', answer, executed⟩ := execute_own own c.store s
          obtain ⟨p, asked, quiet', rfl⟩ := quiet.ask own accepted executed
          obtain ⟨known', told⟩ := tells c.store s _ s' answer known executed
          cases answer with
          | error e =>
              refine ⟨_, { c with workplace := p }, askAll_cons asked, quiet', known', ?_⟩
              rintro _ ⟨⟩
          | ok reply =>
              obtain ⟨result, last, answers, quiet'', known'', all⟩ :=
                ih (c := { c with workplace := p }) quiet' known'
              cases result with
              | error e =>
                  refine ⟨.error e, last, ?_, quiet'', known'', nofun⟩
                  rw [askAll_cons asked, answers]
              | ok replies =>
                  refine ⟨.ok (reply :: replies), last, ?_, quiet'', known'', ?_⟩
                  · rw [askAll_cons asked, answers]
                  · rintro _ ⟨⟩ other member
                    rcases List.mem_cons.mp member with rfl | later
                    · exact told other rfl
                    · exact all replies rfl other later

/-! ## Verdicts -/

theorem bind_nodes {α : Type} (f : List Nat → Action (Client Cluster Session Waiting) α) :
    (nodes >>= f) c = f (List.range c.nodeCount) c := rfl

theorem isDataIdentical_eq : Client.isDataIdentical c = match askAll .digest "digest" (List.range c.nodeCount) c with
    | (.error e, c') => (.error e, c')
    | (.ok [], c') => (.ok false, c')
    | (.ok (first :: rest), c') => (.ok (rest.all (· == first)), c') := by
  unfold Client.isDataIdentical
  rw [bind_nodes, Action.bind_eq]
  generalize askAll _ _ _ c = asked
  obtain ⟨result, c'⟩ := asked
  rcases result with e | (_ | ⟨first, rest⟩) <;> rfl

theorem prepared_eq : Client.prepared c = match askAll .prepared "prepared transactions" (List.range c.nodeCount) c with
    | (.error e, c') => (.error e, c')
    | (.ok replies, c') => (.ok (replies.map Reply.count).sum, c') := by
  unfold Client.prepared
  rw [bind_nodes, Action.bind_eq]
  generalize askAll _ _ _ c = asked
  obtain ⟨result, c'⟩ := asked
  cases result with
  | error e => rfl
  | ok replies => exact congrArg (fun count => (Except.ok count, c')) List.sum_eq_foldl.symm

end Client

end LedgerDrill
