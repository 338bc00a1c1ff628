import LedgerDrill.Proofs.Workload.Brackets
import LedgerDrill.Proofs.Workload.Shifts
import LedgerDrill.Proofs.Workload.Transactions

namespace LedgerDrill

namespace Deed

def isDial : Deed → Bool
  | .dialled _ => true
  | _ => false

def isRollback : Deed → Bool
  | .sent _ .rollback .. => true
  | _ => false

end Deed

namespace Statement

def isWork : Statement → Bool
  | .begin | .add .. | .commit | .total => true
  | .rollback | .create _ | .digest | .prepared => false

def precedes : Statement → Statement → Bool
  | .begin, .add .. | .begin, .commit | .add .., .add .. | .add .., .commit => true
  | _, _ => false

def during : Statement → Bracket
  | .begin => .asked
  | .add .. => .inside
  | .commit | .rollback | .total | .create _ | .digest | .prepared => .outside

def after : Statement → Answer → Bracket
  | .begin, .ok _ | .add .., _ => .inside
  | _, _ => .outside

end Statement

def Bracket.ofStatus : TxStatus → Bracket
  | .idle => .outside
  | .inTransaction | .inError => .inside

section
variable {statement following : Statement} {answer : Answer} {reply : Reply} {status : TxStatus}

theorem sent_during (fits : statement.Fits status) :
    (Bracket.ofStatus status).sent statement = some statement.during := by
  cases statement with
  | rollback => cases status <;> first | rfl | contradiction
  | begin | add | commit | total | create | digest | prepared => cases fits; rfl

theorem told_after (statement : Statement) (answer : Answer) :
    statement.during.told statement answer = some (statement.after answer) := by
  cases statement <;> cases answer <;> rfl

theorem ofStatus_leaves (leaves : statement.Leaves answer status) :
    Bracket.ofStatus status = statement.after answer := by
  cases statement with
  | begin | commit | rollback | total | create | digest | prepared => cases answer <;> cases leaves <;> rfl
  | add =>
      cases answer with
      | ok => cases leaves; rfl
      | error => cases status <;> first | rfl | contradiction

theorem isWork_of_precedes (precedes : statement.precedes following = true) : following.isWork = true := by
  cases following <;> first | rfl | cases statement <;> cases precedes

theorem fits_of_precedes (precedes : statement.precedes following = true)
    (leaves : statement.Leaves (.ok reply) status) : following.Fits status := by
  cases statement with
  | begin | add => cases following <;> first | exact leaves | cases precedes
  | commit | rollback | total | create | digest | prepared => cases precedes

end

namespace Workload
open Outcome

theorem plan_isChain {body : Body} {random : Nat} {first : Statement} {rest : List Statement}
    (plan : body.plan random = .ok (first :: rest)) :
    first.Fits .idle ∧ first.isWork = true ∧ (first :: rest).IsChain (·.precedes · = true) := by
  cases body with
  | sumTotal watch =>
      cases plan
      exact ⟨rfl, rfl, .singleton _⟩
  | transfer accounts amount =>
      simp only [Body.plan] at plan
      split at plan <;> cases plan
      exact ⟨rfl, rfl, .cons_cons rfl (.cons_cons rfl (.cons_cons rfl (.singleton _)))⟩

theorem checkReply_ok {current : Statement} {answer : Answer} {reply : Reply}
    (checked : answer.bind (checkReply current) = .ok reply) : ∃ reply', answer = .ok reply' := by
  cases answer with
  | error e => cases checked
  | ok reply' => exact ⟨reply', rfl⟩

/-! ## What a call does -/

section
variable {σ κ π : Type} [Store σ κ π]

/-- How a call comes to its session, which has a number if it is there in the end, open and idle. -/
inductive Opening (σ : Type) {κ π : Type} [Store σ κ π] :
    Option (Observed.Session κ) → List Deed → Option Nat → Prop
  | refused (node : Nat) : Opening σ none [.dialled node] none
  | opened (node id : Nat) : Opening σ none [.dialled node, .opened id] (some id)
  | idle {s : Observed.Session κ} (idle : Store.status σ s.session = .idle) : Opening σ (some s) [] (some s.id)
  | cleared {s : Observed.Session κ} (broken : Store.status σ s.session ≠ .idle) (reply : Reply) :
      Opening σ (some s)
        [.sent s.id .rollback (Store.status σ s.session) false, .told s.id .rollback (.ok reply)] (some s.id)
  | stuck {s : Observed.Session κ} (broken : Store.status σ s.session ≠ .idle) (e : StoreError) :
      Opening σ (some s)
        [.sent s.id .rollback (Store.status σ s.session) false, .told s.id .rollback (.error e)] none

/-- What a body does on a session. It begins while the session is open and idle. -/
inductive Work (id : Nat) : List Deed → Prop
  | first {statement : Statement} (isWork : statement.isWork = true) :
      Work id [.sent id statement .idle false]
  | sends {deeds : List Deed} (work : Work id deeds) {statement : Statement} (isWork : statement.isWork = true)
      (status : TxStatus) : Work id (deeds ++ [.sent id statement status false])
  | hears {deeds : List Deed} (work : Work id deeds) {statement : Statement} (isWork : statement.isWork = true)
      (answer : Answer) : Work id (deeds ++ [.told id statement answer])

/-- The body of a call does nothing before the call has come to a session. -/
def Ordered (σ : Type) {κ π : Type} [Store σ κ π] (held : Option (Observed.Session κ)) (deeds : List Deed) : Prop :=
  ∃ opening work id?, deeds = opening ++ work ∧ Opening σ held opening id? ∧
    (work = [] ∨ ∃ id, id? = some id ∧ Work id work)

/-- What every call does. -/
structure Lap.Disciplined (σ : Type) {κ π : Type} [Store σ κ π] (lap : Lap κ) : Prop where
  dials : lap.deeds.countP Deed.isDial = if lap.held.isSome then 0 else 1
  rollbacks : lap.deeds.countP Deed.isRollback =
    if lap.held.any (Store.status σ ·.session != .idle) then 1 else 0
  ordered : Ordered σ lap.held lap.deeds

variable {id : Nat} {deeds work : List Deed} {held : Option (Observed.Session κ)}

theorem Work.isSilent (worked : Work id work) :
    work.countP Deed.isDial = 0 ∧ work.countP Deed.isRollback = 0 := by
  induction worked with
  | @first statement isWork => cases statement <;> first | exact ⟨rfl, rfl⟩ | cases isWork
  | @sends deeds _ statement isWork status ih =>
      obtain ⟨dials, rollbacks⟩ := ih
      rw [List.countP_append, List.countP_append, dials, rollbacks]
      cases statement <;> first | exact ⟨rfl, rfl⟩ | cases isWork
  | hears _ _ _ ih =>
      obtain ⟨dials, rollbacks⟩ := ih
      rw [List.countP_append, List.countP_append, dials, rollbacks]
      exact ⟨rfl, rfl⟩

theorem Lap.disciplined {lap : Lap κ} (ordered : Ordered σ lap.held lap.deeds) : lap.Disciplined σ := by
  have counts := ordered
  obtain ⟨opening, work, id?, split, opens, worked⟩ := counts
  obtain ⟨dials, rollbacks⟩ : work.countP Deed.isDial = 0 ∧ work.countP Deed.isRollback = 0 := by
    rcases worked with rfl | ⟨id, -, worked⟩
    · exact ⟨rfl, rfl⟩
    · exact worked.isSilent
  refine ⟨?_, ?_, ordered⟩
  · rw [split, List.countP_append, dials]
    generalize lap.held = held at opens ⊢
    cases opens <;> rfl
  · rw [split, List.countP_append, rollbacks]
    generalize lap.held = held at opens ⊢
    cases opens with
    | refused | opened => rfl
    | idle idle => simp [idle]
    | cleared broken | stuck broken => simp [broken, Deed.isRollback, List.countP_cons]

end

/-! ## The stages of a call -/

section
variable {σ κ π : Type} [Store σ κ π]

inductive Asks (Pending : Statement → κ → π → Prop) (past : List Deed) (Shaped : Nat → List Deed → Prop)
    (statement : Statement) : Turn (Observed σ) (Observed.Session κ) (Statement × π) → Prop
  | answered {o : Observed σ} {s : Observed.Session κ} {answer : Answer} {before : List Deed}
      (written : o.deeds = before ++ [.told s.id statement answer]) (shaped : Shaped s.id before)
      (reads : Reads (past ++ o.deeds) o.opened s.id (statement.after answer))
      (leaves : Store.isClosed σ s.session = false → statement.Leaves answer (Store.status σ s.session))
      (stays : ∀ reply, answer = .ok reply → Store.isClosed σ s.session = false) :
      Asks Pending past Shaped statement ⟨o, s, .answered answer⟩
  | waiting {o : Observed σ} {s : Observed.Session κ} {latency : Latency} {point : π} (shaped : Shaped s.id o.deeds)
      (reads : Reads (past ++ o.deeds) o.opened s.id statement.during) (pending : Pending statement s.session point) :
      Asks Pending past Shaped statement ⟨o, s, .waiting latency (statement, point)⟩

variable {Pending : Statement → κ → π → Prop} {past : List Deed} {Shaped : Nat → List Deed → Prop}
variable {statement : Statement} {o : Observed σ} {s : Observed.Session κ} {id : Nat}

theorem asks_turn (shaped : Shaped id o.deeds) (reads : Reads (past ++ o.deeds) o.opened id statement.during)
    {turn : Turn σ κ π} (goes : Store.Goes Pending statement turn) :
    Asks Pending past Shaped statement (o.turn id statement turn) := by
  cases goes with
  | @answered store s answer leaves stays =>
      refine .answered rfl shaped ?_ leaves stays
      simp only [Observed.note, ← List.append_assoc]
      refine reads.append rfl ?_
      rw [Bracket.next, if_pos rfl]
      exact told_after statement answer
  | waiting pending =>
      have same (o : Observed σ) (store : σ) : (o.note store []).deeds = o.deeds := List.append_nil _
      refine .waiting ?_ ?_ pending
      · rw [same]
        exact shaped
      · rw [same]
        exact reads

theorem asks_start (transacts : Store.Transacts σ Pending) (isOpen : Store.isClosed σ s.session = false)
    (fits : statement.Fits (Store.status σ s.session))
    (reads : Reads (past ++ o.deeds) o.opened s.id (.ofStatus (Store.status σ s.session)))
    (shaped : Shaped s.id (o.deeds ++ [.sent s.id statement (Store.status σ s.session) false])) :
    Asks Pending past Shaped statement (Store.start statement o s) := by
  refine asks_turn ?_ ?_ (transacts.starts isOpen fits o.store)
  · simp only [Observed.sent, Observed.note, isOpen]
    exact shaped
  · simp only [Observed.sent, Observed.note, isOpen, ← List.append_assoc]
    refine reads.append rfl ?_
    rw [Bracket.next, if_pos rfl]
    exact sent_during fits

theorem asks_resume (transacts : Store.Transacts σ Pending) {latency : Latency} {point : Statement × π}
    (asks : Asks Pending past Shaped statement ⟨o, s, .waiting latency point⟩) (store : σ) :
    Asks Pending past Shaped statement (Store.resume point { o with store } s) := by
  cases asks with
  | waiting shaped reads pending => exact asks_turn shaped reads (transacts.resumes pending store)

theorem Asks.tidy {latency : Latency} {point : Statement × π}
    (asks : Asks Pending past Shaped statement ⟨o, s, .waiting latency point⟩) : Tidy (past ++ o.deeds) o.opened := by
  cases asks with
  | waiting shaped reads pending => exact reads.tidy

theorem Asks.change {latency : Latency} {point : Statement × π}
    (asks : Asks Pending past Shaped statement ⟨o, s, .waiting latency point⟩) (store : σ) :
    Asks Pending past Shaped statement ⟨{ o with store }, s, .waiting latency point⟩ := by
  cases asks with
  | waiting shaped reads pending => exact .waiting shaped reads pending

def RollsBack (σ : Type) {κ π : Type} [Store σ κ π] (held : Option (Observed.Session κ)) (id : Nat)
    (deeds : List Deed) : Prop :=
  ∃ s, held = some s ∧ id = s.id ∧ Store.status σ s.session ≠ .idle ∧
    deeds = [.sent s.id .rollback (Store.status σ s.session) false]

def Works (σ : Type) {κ π : Type} [Store σ κ π] (held : Option (Observed.Session κ)) (id : Nat) (deeds : List Deed) :
    Prop :=
  ∃ opening work, deeds = opening ++ work ∧ Opening σ held opening (some id) ∧ Work id work

structure Keeps (σ : Type) {κ π : Type} [Store σ κ π] (deeds : List Deed) (opened : Nat)
    (session : Option (Observed.Session κ)) : Prop where
  tidy : Tidy deeds opened
  reads : ∀ s, session = some s → Store.isClosed σ s.session = false →
    Reads deeds opened s.id (.ofStatus (Store.status σ s.session))

def calling (σ : Type) {κ π : Type} [Store σ κ π] (Pending : Statement → κ → π → Prop) (past : List Deed)
    (held : Option (Observed.Session κ)) : Itinerary (Observed σ) (Observed.Session κ) (Statement × π) where
  Dialled o := held = none ∧ (∃ node, o.deeds = [.dialled node]) ∧ Tidy (past ++ o.deeds) o.opened
  Ready o s := Opening σ held o.deeds (some s.id) ∧ Reads (past ++ o.deeds) o.opened s.id .outside ∧
    Store.isClosed σ s.session = false ∧ Store.status σ s.session = .idle
  Rolling := Asks Pending past (RollsBack σ held) .rollback
  Working current rest turn := current.isWork = true ∧ (current :: rest).IsChain (·.precedes · = true) ∧
    Asks Pending past (Works σ held) current turn
  Ended o session _ := Ordered σ held o.deeds ∧ Keeps σ (past ++ o.deeds) o.opened session

variable {held : Option (Observed.Session κ)} {l : Loop (Observed.Session κ)}

theorem Opening.ordered {deeds : List Deed} {id? : Option Nat} (opens : Opening σ held deeds id?) :
    Ordered σ held deeds :=
  ⟨deeds, [], id?, (List.append_nil deeds).symm, opens, Or.inl rfl⟩

theorem Works.ordered {deeds : List Deed} (works : Works σ held id deeds) : Ordered σ held deeds := by
  obtain ⟨opening, work, split, opens, worked⟩ := works
  exact ⟨opening, work, some id, split, opens, Or.inr ⟨id, rfl, worked⟩⟩

theorem Works.hears {deeds : List Deed} (works : Works σ held id deeds) (isWork : statement.isWork = true)
    (answer : Answer) : Works σ held id (deeds ++ [.told id statement answer]) := by
  obtain ⟨opening, work, rfl, opens, worked⟩ := works
  exact ⟨opening, work ++ _, List.append_assoc .., opens, worked.hears isWork answer⟩

theorem Works.sends {deeds : List Deed} (works : Works σ held id deeds) (isWork : statement.isWork = true)
    (status : TxStatus) : Works σ held id (deeds ++ [.sent id statement status false]) := by
  obtain ⟨opening, work, rfl, opens, worked⟩ := works
  exact ⟨opening, work ++ _, List.append_assoc .., opens, worked.sends isWork status⟩

theorem keeps_answered {deeds : List Deed} {opened : Nat} {answer : Answer}
    (reads : Reads deeds opened s.id (statement.after answer))
    (leaves : Store.isClosed σ s.session = false → statement.Leaves answer (Store.status σ s.session)) :
    Keeps σ deeds opened (some s) := by
  refine ⟨reads.tidy, fun _ same isOpen => ?_⟩
  cases same
  rw [ofStatus_leaves (leaves isOpen)]
  exact reads

theorem calling_ended {turn : Turn (Observed σ) (Observed.Session κ) (Statement × π)} {answer answer' : Answer}
    {current : Statement} {rest : List Statement}
    (working : (calling σ Pending past held).Working current rest turn) (next : turn.next = .answered answer) :
    (calling σ Pending past held).Ended turn.store (some turn.session) answer' := by
  obtain ⟨isWork, -, asks⟩ := working
  cases asks with
  | waiting => cases next
  | answered written works reads leaves stays =>
      refine ⟨?_, keeps_answered reads leaves⟩
      rw [written]
      exact (works.hears isWork _).ordered

theorem calling_taken (transacts : Store.Transacts σ Pending) (isOpen : Store.isClosed σ s.session = false)
    (idle : Store.status σ s.session = .idle → Opening σ held o.deeds (some s.id))
    (broken : Store.status σ s.session ≠ .idle →
      RollsBack σ held s.id (o.deeds ++ [.sent s.id .rollback (Store.status σ s.session) false]))
    (reads : Reads (past ++ o.deeds) o.opened s.id (.ofStatus (Store.status σ s.session))) :
    (calling σ Pending past held).Taken o s := by
  refine ⟨fun ready => ?_, fun open_ => ?_⟩
  · have ready : Store.status σ s.session = .idle := ready
    rw [ready] at reads
    exact ⟨idle ready, reads, isOpen, ready⟩
  · exact asks_start transacts isOpen open_ reads (broken open_)

theorem calling_leads (transacts : Store.Transacts σ Pending) (past : List Deed)
    (held : Option (Observed.Session κ)) (l : Loop (Observed.Session κ)) :
    (calling σ Pending past held).Leads l where
  expired dialled := by
    obtain ⟨rfl, ⟨node, deeds⟩, tidy⟩ := dialled
    refine ⟨?_, tidy, nofun⟩
    rw [deeds]
    exact (Opening.refused node).ordered
  refused dialled result := by
    obtain ⟨rfl, ⟨node, deeds⟩, tidy⟩ := dialled
    obtain ⟨store, rfl⟩ := Observed.accept_error result
    simp only [calling, Observed.note, List.append_nil]
    refine ⟨?_, tidy, nofun⟩
    rw [deeds]
    exact (Opening.refused node).ordered
  accepted {o o' s} dialled result := by
    obtain ⟨rfl, ⟨node, deeds⟩, tidy⟩ := dialled
    obtain ⟨store, session, accepted, rfl, rfl⟩ := Observed.accept_ok result
    obtain ⟨isOpen, idle⟩ := transacts.accepts accepted
    have reads : Reads (past ++ (o.deeds ++ [.opened o.opened])) (o.opened + 1) o.opened .outside :=
      List.append_assoc past .. ▸ tidy.opens
    refine calling_taken transacts isOpen (fun _ => ?_) (fun broken => absurd idle broken) ?_
    · rw [deeds]
      exact .opened node o.opened
    · rw [idle]
      exact reads
  stuck rolling next := by
    cases rolling with
    | waiting => cases next
    | answered written shaped reads leaves stays =>
        cases next
        obtain ⟨h, rfl, same, broken, rfl⟩ := shaped
        refine ⟨?_, keeps_answered reads leaves⟩
        rw [written, same]
        exact (Opening.stuck broken _).ordered
  rolledBack rolling next := by
    cases rolling with
    | waiting => cases next
    | answered written shaped reads leaves stays =>
        cases next
        obtain ⟨h, rfl, same, broken, rfl⟩ := shaped
        have isOpen := stays _ rfl
        refine ⟨?_, reads, isOpen, leaves isOpen⟩
        rw [written, same]
        exact .cleared broken _
  unplanned ready _ := by
    obtain ⟨opens, reads, -, idle⟩ := ready
    refine ⟨opens.ordered, reads.tidy, fun _ same _ => ?_⟩
    cases same
    rw [idle]
    exact reads
  planned {o s random first rest} ready plan := by
    obtain ⟨opens, reads, isOpen, idle⟩ := ready
    obtain ⟨fits, isWork, chain⟩ := plan_isChain plan
    refine ⟨isWork, chain, asks_start transacts isOpen (idle ▸ fits) (idle ▸ reads) ?_⟩
    rw [idle]
    exact ⟨o.deeds, _, rfl, opens, .first isWork⟩
  failed working next _ := calling_ended working next
  completed working next _ := calling_ended working next
  passed {current following rest turn answer reply} working next checked := by
    obtain ⟨isWork, chain, asks⟩ := working
    obtain ⟨reply', rfl⟩ := checkReply_ok checked
    obtain ⟨precedes, chain⟩ := List.isChain_cons_cons.mp chain
    have isWork' : following.isWork = true := isWork_of_precedes precedes
    cases asks with
    | waiting => cases next
    | answered written works reads leaves stays =>
        cases next
        have isOpen := stays _ rfl
        have left := leaves isOpen
        rw [← ofStatus_leaves left] at reads
        refine ⟨isWork', chain, asks_start transacts isOpen (fits_of_precedes precedes left) reads ?_⟩
        rw [written]
        exact (works.hears isWork _).sends isWork' _

/-! ## All calls -/

variable {laps : List (Lap κ)}

def orderly (σ : Type) {κ π : Type} [Store σ κ π] (Pending : Statement → κ → π → Prop) : Routine σ κ π where
  Known laps _ := ∀ lap ∈ laps, lap.Disciplined σ
  Holds laps opened session := Keeps σ (laps.flatMap (·.deeds)) opened session
  stages laps held := calling σ Pending (laps.flatMap (·.deeds)) held

theorem calling_endures (transacts : Store.Transacts σ Pending) (past : List Deed)
    (held : Option (Observed.Session κ)) : (calling σ Pending past held).Endures where
  dialled dialled _ := dialled
  rolling asks store := ⟨asks.change store, asks_resume transacts asks store⟩
  working working store := by
    obtain ⟨isWork, chain, asks⟩ := working
    exact ⟨⟨isWork, chain, asks.change store⟩, isWork, chain, asks_resume transacts asks store⟩

theorem orderly_leads (transacts : Store.Transacts σ Pending) : (orderly σ Pending).Leads where
  leads _ held := calling_leads transacts _ held _
  endures _ held := calling_endures transacts _ held
  takes {laps o s} keeps none isOpen := by
    refine calling_taken transacts isOpen (fun idle => ?_) (fun broken => ?_) ?_
    · rw [none]
      exact .idle idle
    · rw [none]
      exact ⟨s, rfl, rfl, broken, rfl⟩
    · rw [none, List.append_nil]
      exact keeps.reads s rfl isOpen
  dials {laps o session} keeps none node := by
    have deeds : (Store.dial o node).1.deeds = [.dialled node] := congrArg (· ++ [Deed.dialled node]) none
    refine ⟨rfl, ⟨node, deeds⟩, ?_⟩
    rw [deeds]
    exact keeps.tidy.append rfl
  ends {laps held o session answer body} disciplined ended := by
    obtain ⟨ordered, tidy, reads⟩ := ended
    refine ⟨fun lap member => ?_, fun session' kept => ?_⟩
    · rcases List.mem_append.mp member with earlier | last
      · exact disciplined lap earlier
      · cases List.mem_singleton.mp last
        exact Lap.disciplined ordered
    · simp only [orderly, List.flatMap_append, List.flatMap_singleton]
      exact ⟨tidy, fun s same isOpen => reads s (kept s same) isOpen⟩

end

def Course.isBackingOff {κ π : Type} : Course κ π → Bool
  | .waiting _ (.iteration ⟨_, _, .backingOff⟩) | .waiting _ (.running ⟨_, _, .backingOff⟩ ..) => true
  | .waiting .. | .landed _ => false

namespace Shift

variable {σ κ π : Type} [Store σ κ π]

/-- How a shift of a loop is seen. -/
structure Orderly (s : Shift σ κ π) : Prop where
  disciplined : ∀ lap ∈ s.laps, lap.Disciplined σ
  /-- One outcome is recorded for every call that has come to its end, and for one that only backs off. -/
  outcomes : s.laps.length = s.calls + if s.course.isBackingOff then 1 else 0
  recorded : (s.snapshots.map (·.records s.key)).sum + s.shared.registry.records s.key = s.laps.length
  /-- On every session, a transaction that has begun is ended once before the next one begins. -/
  brackets : ∀ id before reply between status closed after,
    s.deeds = before ++ .told id .begin (.ok reply) :: (between ++ .sent id .begin status closed :: after) →
    (∀ deed ∈ between, deed.begins id = false) → between.countP (Deed.ends id) = 1
  /-- A run tells how many outcomes were recorded since it began. -/
  runs : ∀ n, s.course = .landed (.run n) → s.laps.length = s.early + n
  /-- It ends where it looks at its flag the next time, if the flag is down. -/
  stops : ∀ wait l up n, s.course = .waiting wait (.resting l up n) → s.flag.isUp = false →
    ∀ expired random now, (s.step (.wake expired random now)).course = .landed (.run n)

variable {Pending : Statement → κ → π → Prop} {s : Shift σ κ π} {key : Key} {laps : List (Lap κ)}
variable {held : Option (Observed.Session κ)} {o : Observed σ} {up : Bool} {calls early : Nat}

theorem tidy_flight {i : Iteration (Observed.Session κ) (Statement × π)}
    (flight : InFlight (orderly σ Pending).regime key laps held o calls i) :
    (∀ lap ∈ laps, lap.Disciplined σ) ∧ Tidy (laps.flatMap (·.deeds) ++ o.deeds) o.opened := by
  cases flight with
  | backsOff own count rests =>
      obtain ⟨disciplined, keeps, none⟩ := rests
      rw [none, List.append_nil]
      exact ⟨disciplined, keeps.tidy⟩
  | waits own inside count waits =>
      obtain ⟨l, started, point⟩ := i
      obtain ⟨disciplined, awaits⟩ := waits
      refine ⟨disciplined, ?_⟩
      cases point with
      | connecting => exact awaits.2.2
      | backingOff => exact absurd awaits id
      | rollingBack s point =>
          obtain ⟨latency, asks⟩ := awaits
          exact asks.tidy
      | working s current point rest =>
          obtain ⟨latency, -, -, asks⟩ := awaits
          exact asks.tidy

theorem tidy_stands {course : Course (Observed.Session κ) (Statement × π)}
    (stands : Stands (orderly σ Pending).regime key laps held o up calls early course) :
    (∀ lap ∈ laps, lap.Disciplined σ) ∧ Tidy (laps.flatMap (·.deeds) ++ o.deeds) o.opened := by
  cases stands with
  | idle _ _ rests | resting _ _ _ rests | ended _ _ rests =>
      obtain ⟨disciplined, keeps, none⟩ := rests
      rw [none, List.append_nil]
      exact ⟨disciplined, keeps.tidy⟩
  | iterating flight | running _ flight => exact tidy_flight flight

omit [Store σ κ π] in
theorem length_flight {regime : Regime σ κ π} {i : Iteration (Observed.Session κ) (Statement × π)} {wait : Wait}
    (flight : InFlight regime key laps held o calls i) (up : Bool) (run : Option Nat) :
    laps.length = calls +
      if (courseOf up i.started i.loop (.waiting wait i.point) run).isBackingOff then 1 else 0 := by
  cases flight with
  | backsOff own count rests => cases run <;> exact count
  | waits own inside count waits =>
      obtain ⟨l, started, point⟩ := i
      cases point with
      | backingOff => contradiction
      | connecting | rollingBack | working => cases run <;> exact count

omit [Store σ κ π] in
theorem length_stands {regime : Regime σ κ π} {course : Course (Observed.Session κ) (Statement × π)}
    (stands : Stands regime key laps held o up calls early course) :
    laps.length = calls + if course.isBackingOff then 1 else 0 := by
  cases stands with
  | idle _ count | resting _ count | ended count => exact count
  | iterating flight => exact length_flight flight up none
  | @running _ _ n _ flight => exact length_flight flight up (some n)

omit [Store σ κ π] in
theorem gains_all (key : Key) (laps : List (Lap κ)) : gains (Gauge.all key) laps = laps.length := by
  induction laps with
  | nil => rfl
  | cons lap laps ih => rw [gains_cons, ih, List.length_cons, Nat.add_comm]; rfl

theorem Sound.orderly (sound : s.Sound (orderly σ Pending).regime) : s.Orderly := by
  have stands := sound.stands
  obtain ⟨disciplined, tidy⟩ := tidy_stands stands
  have all : (Gauge.all s.key).IsOf s.key := fun _ => rfl
  have shown : List.Forall₂ (fun snapshot window => snapshot.records s.key = window.length) s.snapshots s.windows :=
    sound.taken.imp fun _ window shows => (shows _ all).trans (gains_all s.key window)
  have live : s.shared.registry.records s.key = s.latest.length := by
    rw [← live_all, sound.live _ all, gains_all]
  refine ⟨disciplined, length_stands stands, ?_, ?_, ?_, ?_⟩
  · rw [live, laps, List.length_append]
    congr 1
    exact sum_shown (fun _ _ => List.length_append) rfl shown
  · intro id before reply between status closed after split none
    exact Bracket.one_end (tidy.accepted id) split none
  · intro n landed
    rw [landed] at stands
    cases stands with
    | ended count run => exact count.trans run
  · intro wait l up n resting down expired random now
    rw [resting] at stands
    cases stands with
    | resting own count run rests =>
        rw [down] at resting
        simp only [Shift.step, resting]
        rfl

/-- Whatever happens to the store, every call of a loop on a cluster, or on a store that follows a script, keeps to
its order and records one outcome; and so does every call of a run. -/
theorem calls_are_orderly (node : Nat) (body : Body) (settings : Settings) :
    (∀ (c : Cluster) (events : List (Event Cluster)),
      let s : Shift Cluster _ _ := work c node body settings events
      s.Orderly ∧ ∀ event, (s.step event).plain = plainStep s.key s.flag s.plain event) ∧
    ∀ (script : Scripted) (events : List (Event Scripted)),
      let s : Shift Scripted _ _ := work script node body settings events
      s.Orderly ∧ ∀ event, (s.step event).plain = plainStep s.key s.flag s.plain event := by
  constructor
  · intro c events
    refine ⟨Sound.orderly (sound_work (orderly_leads Cluster.transacts).lasts ?_ events), plain_step _⟩
    exact ⟨nofun, ⟨tidy_nil _, nofun⟩, rfl⟩
  · intro script events
    refine ⟨Sound.orderly (sound_work (orderly_leads Scripted.transacts).lasts ?_ events), plain_step _⟩
    exact ⟨nofun, ⟨tidy_nil _, nofun⟩, rfl⟩

/-- A transfer that fails at its first update is rolled back by the next call, on the same session. -/
example :
    let calls : List (Event Scripted) :=
      [.iterate 0 0, .wake false 0 0, .wake false 0 0, .wake false 0 0,
        .iterate 0 0, .wake false 0 0, .wake false 0 0, .wake false 0 0, .wake false 0 0]
    (work ({ rowScript := [0] } : Scripted) 0 (.transfer 4 7) ⟨.zero, .zero⟩ calls).laps.map (fun lap =>
      (lap.deeds.countP Deed.isDial, lap.deeds.countP Deed.isRollback, lap.ending.toBool)) =
        [(1, 0, false), (0, 1, true)] := by
  decide

end Shift

end Workload

end LedgerDrill
