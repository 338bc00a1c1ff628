import LedgerDrill.Rehearsal
import LedgerDrill.Proofs.Outcome.Operations
import LedgerDrill.Proofs.Workload.Itineraries
import LedgerDrill.Proofs.Workload.Observed
import LedgerDrill.Proofs.Workload.Soundness
import Mathlib.Data.List.Forall2

/-!
One loop at work, as others see it. It is called some times and then left to run, while its store changes in any way
between two of its steps, other loops use the registry, snapshots are taken, and its flag is set or let go.
Beside its state a shift keeps what each call did, by the windows in which the outcomes were recorded.
-/

namespace LedgerDrill.Workload
open Outcome

/-- A call whose outcome was recorded, with the open session that the loop held before it. -/
structure Lap (κ : Type) where
  held : Option (Observed.Session κ)
  deeds : List Deed
  ending : Ending

def Course.isCompleted {κ π : Type} : Course κ π → Bool
  | .landed (.iteration _) | .waiting _ (.resting ..) => true
  | .landed _ | .waiting .. => false

def Course.setFlag {κ π : Type} (value : Bool) : Course κ π → Course κ π
  | .waiting wait task => .waiting wait (task.setFlag value)
  | .landed landing => .landed landing

structure Shift (σ κ π : Type) where
  key : Key
  shared : Shared (Observed σ)
  /-- A loop that landed as an iteration is at hand, and may be called. -/
  course : Course (Observed.Session κ) (Statement × π)
  flag : Flag := {}
  /-- The open session that the loop held before the call in flight. -/
  held : Option (Observed.Session κ) := none
  calls : Nat := 0
  /-- Those before the loop was left to run. -/
  early : Nat := 0
  /-- The snapshots that were taken, oldest first, with the calls that were recorded before each. -/
  snapshots : List Snapshot := []
  windows : List (List (Lap κ)) := []
  latest : List (Lap κ) := []

namespace Shift

inductive Event (σ : Type)
  | iterate (random : Nat) (now : Instant)
  | run (random : Nat) (now : Instant)
  | wake (expired : Bool) (random : Nat) (now : Instant)
  | setFlag (value letGo : Bool)
  /-- Faults, and whoever else uses the store. -/
  | interfere (change : σ → σ)
  /-- What other loops do to the registry. -/
  | others (op : Op)
  | takeSnapshot (now : Instant)

variable {σ κ π : Type}

def laps (s : Shift σ κ π) : List (Lap κ) := s.windows.flatten ++ s.latest

def deeds (s : Shift σ κ π) : List Deed := s.laps.flatMap (·.deeds) ++ s.shared.store.deeds

variable [Store σ κ π]

/-- A step of the loop. With its outcome a call is recorded, and the record of deeds begins anew. -/
def proceed (s : Shift σ κ π) (held : Option (Observed.Session κ)) (ending : Option Ending)
    (result : Shared (Observed σ) × Course (Observed.Session κ) (Statement × π)) : Shift σ κ π :=
  let (shared, course) := result
  let calls := s.calls + if course.isCompleted then 1 else 0
  match ending with
  | none => { s with shared, course, held, calls }
  | some ending =>
    { s with
      shared := { shared with store := { shared.store with deeds := [] } }
      course, held, calls
      latest := s.latest ++ [⟨held, shared.store.deeds, ending⟩] }

def advance (s : Shift σ κ π) (task : Task (Observed.Session κ) (Statement × π)) (expired : Bool) (random : Nat)
    (now : Instant) : Shift σ κ π :=
  let result := s.shared.resume task expired random now
  match task with
  | .iteration i | .running i _ _ =>
    s.proceed s.held (i.loop.resume i.point expired random s.shared.store).ending result
  | .resting loop true _ =>
    s.proceed (loop.openSession? (Store.isClosed (Observed σ))) (loop.start random s.shared.store).ending result
  | .resting _ false _ | .statement .. => s.proceed s.held none result

def step (s : Shift σ κ π) : Event σ → Shift σ κ π
  | .iterate random now =>
    match s.course with
    | .landed (.iteration loop) =>
      s.proceed (loop.openSession? (Store.isClosed (Observed σ))) (loop.start random s.shared.store).ending
        (s.shared.launchIteration loop random now)
    | _ => s
  | .run random now =>
    match s.course with
    | .landed (.iteration loop) =>
      { s with early := s.calls }.advance (.resting loop s.flag.isUp 0) false random now
    | _ => s
  | .wake expired random now =>
    match s.course with
    | .waiting _ task => s.advance task expired random now
    | .landed _ => s
  | .setFlag value letGo =>
    let flag := s.flag.set value letGo
    { s with flag, course := s.course.setFlag flag.isUp }
  | .interfere change =>
    { s with shared := { s.shared with store := { s.shared.store with store := change s.shared.store.store } } }
  | .others op =>
    if op.key = s.key then s
    else { s with shared := { s.shared with registry := s.shared.registry.perform op } }
  | .takeSnapshot now =>
    let (snapshot, registry) := s.shared.registry.takeSnapshot now
    { s with
      shared := { s.shared with registry }
      snapshots := s.snapshots ++ [snapshot], windows := s.windows ++ [s.latest], latest := [] }

/-- The loop on the store alone. -/
def plain (s : Shift σ κ π) : Shared σ × Course κ π := plainly (s.shared, s.course)

/-- A step of the loop on the store alone. -/
def plainStep (key : Key) (flag : Flag) (p : Shared σ × Course κ π) : Event σ → Shared σ × Course κ π
  | .iterate random now =>
    match p.2 with
    | .landed (.iteration loop) => p.1.launchIteration loop random now
    | _ => p
  | .run random now =>
    match p.2 with
    | .landed (.iteration loop) => p.1.continueRun loop flag.isUp 0 random now
    | _ => p
  | .wake expired random now =>
    match p.2 with
    | .waiting _ task => p.1.resume task expired random now
    | .landed _ => p
  | .setFlag value letGo => (p.1, p.2.setFlag (flag.set value letGo).isUp)
  | .interfere change => ({ p.1 with store := change p.1.store }, p.2)
  | .others op => if op.key = key then p else ({ p.1 with registry := p.1.registry.perform op }, p.2)
  | .takeSnapshot now => ({ p.1 with registry := (p.1.registry.takeSnapshot now).2 }, p.2)

def new (store : σ) (node : Nat) (body : Body) (settings : Settings) : Shift σ κ π :=
  let loop : Loop (Observed.Session κ) := { node, body, settings }
  { key := loop.key, shared := { store := ⟨store, [], 0⟩ : Shared (Observed σ) }.register loop
    course := .landed (.iteration loop) }

def work (store : σ) (node : Nat) (body : Body) (settings : Settings) (events : List (Event σ)) : Shift σ κ π :=
  events.foldl step (new store node body settings)

end Shift

namespace Shift

variable {σ κ π : Type} [Store σ κ π]

omit [Store σ κ π] in
theorem plain_proceed (s : Shift σ κ π) (held : Option (Observed.Session κ)) (ending : Option Ending)
    (result : Shared (Observed σ) × Course (Observed.Session κ) (Statement × π)) :
    (s.proceed held ending result).plain = plainly result := by
  cases ending <;> rfl

theorem plain_advance (s : Shift σ κ π) (task : Task (Observed.Session κ) (Statement × π)) (expired : Bool)
    (random : Nat) (now : Instant) :
    (s.advance task expired random now).plain = s.plain.1.resume task.plain expired random now := by
  refine Eq.trans ?_ (plain_resumeTask s.shared task expired)
  cases task with
  | iteration | running | statement => exact plain_proceed s _ _ _
  | resting loop flag completed => cases flag <;> exact plain_proceed s _ _ _

theorem plain_step (s : Shift σ κ π) (event : Event σ) :
    (s.step event).plain = plainStep s.key s.flag s.plain event := by
  obtain ⟨key, shared, course, flag, held, calls, early, snapshots, windows, latest⟩ := s
  cases event with
  | iterate random now =>
      cases course with
      | waiting => rfl
      | landed landing =>
          cases landing with
          | statement | run => rfl
          | iteration loop => exact (plain_proceed _ _ _ _).trans (plain_launchIteration shared loop)
  | run random now =>
      cases course with
      | waiting => rfl
      | landed landing =>
          cases landing with
          | statement | run => rfl
          | iteration loop => exact plain_advance _ (.resting loop flag.isUp 0) false random now
  | wake expired random now =>
      cases course with
      | landed => rfl
      | waiting wait task => exact plain_advance _ task expired random now
  | setFlag value letGo =>
      cases course with
      | landed => rfl
      | waiting wait task => cases task <;> rfl
  | interfere change => rfl
  | others op =>
      simp only [step, plainStep]
      split <;> rfl
  | takeSnapshot now => rfl

end Shift

/-! ## What every step keeps -/

/-- What is known of a loop that has recorded some calls. -/
structure Regime (σ κ π : Type) where
  Rests : List (Lap κ) → Observed σ → Loop (Observed.Session κ) → Prop
  Waits : List (Lap κ) → Option (Observed.Session κ) → Observed σ → Loop (Observed.Session κ) →
    Point (Observed.Session κ) (Statement × π) → Prop

namespace Regime

variable {σ κ π : Type}

def isOver : LoopNext κ π → Bool
  | .done | .waiting _ .backingOff => true
  | .waiting .. => false

inductive Leaves (regime : Regime σ κ π) (laps : List (Lap κ)) (held : Option (Observed.Session κ))
    (l : Loop (Observed.Session κ)) :
    LoopTurn (Observed σ) (Observed.Session κ) (Statement × π) → Prop
  | waits {o : Observed σ} {l' : Loop (Observed.Session κ)} {wait : Wait}
      {point : Point (Observed.Session κ) (Statement × π)} (key : l'.key = l.key) (inside : point ≠ .backingOff)
      (waits : regime.Waits laps held o l' point) : Leaves regime laps held l ⟨o, l', none, .waiting wait point⟩
  | ends {o : Observed σ} {l' : Loop (Observed.Session κ)} {ending : Ending}
      {next : LoopNext (Observed.Session κ) (Statement × π)} (key : l'.key = l.key) (final : isOver next = true)
      (rests : regime.Rests (laps ++ [⟨held, o.deeds, ending⟩]) { o with deeds := [] } l') :
      Leaves regime laps held l ⟨o, l', some ending, next⟩

variable [Store σ κ π]

variable {regime : Regime σ κ π} {laps : List (Lap κ)} {held session : Option (Observed.Session κ)}
variable {l : Loop (Observed.Session κ)} {o : Observed σ} {answer : Answer}

theorem leaves_conclude
    (rests : ∀ session', (∀ s, session' = some s → session = some s) →
      regime.Rests (laps ++ [⟨held, o.deeds, (l.body.conclude answer).2⟩]) { o with deeds := [] }
        { l with body := (l.body.conclude answer).1, session := session' }) :
    regime.Leaves laps held l (l.conclude o session answer) := by
  have key : Key.mk l.node (l.body.conclude answer).1.kind = l.key :=
    congrArg (Key.mk l.node) (kind_conclude l.body answer)
  unfold Loop.conclude
  cases concluded : l.body.conclude answer with
  | mk body ending =>
  rw [concluded] at rests key
  cases ending with
  | ok changed => exact .ends key rfl (rests session fun _ same => same)
  | error e =>
      refine .ends key rfl (rests _ fun s kept => ?_)
      exact (Option.filter_eq_some_iff.mp kept).1

/-- What is known is kept by the steps of the loop, and whatever happens to the store. -/
structure Lasts (regime : Regime σ κ π) : Prop where
  starts : ∀ {laps o l}, regime.Rests laps o l → ∀ random,
    regime.Leaves laps (l.openSession? (Store.isClosed (Observed σ))) l (l.start random o)
  resumes : ∀ {laps held o l point}, regime.Waits laps held o l point → ∀ expired random,
    regime.Leaves laps held l (l.resume point expired random o)
  restsOn : ∀ {laps o l}, regime.Rests laps o l → ∀ store, regime.Rests laps { o with store } l
  waitsOn : ∀ {laps held o l point}, regime.Waits laps held o l point → ∀ store,
    regime.Waits laps held { o with store } l point

end Regime

section
variable {σ κ π : Type} [Store σ κ π]

/-- What holds where an iteration waits does not depend on the store, and leads on whatever the store is then. -/
structure Itinerary.Endures (it : Itinerary (Observed σ) (Observed.Session κ) (Statement × π)) : Prop where
  dialled : ∀ {o}, it.Dialled o → ∀ store, it.Dialled { o with store }
  rolling : ∀ {o s latency point}, it.Rolling ⟨o, s, .waiting latency point⟩ → ∀ store,
    it.Rolling ⟨{ o with store }, s, .waiting latency point⟩ ∧ it.Rolling (Store.resume point { o with store } s)
  working : ∀ {current rest o s latency point}, it.Working current rest ⟨o, s, .waiting latency point⟩ → ∀ store,
    it.Working current rest ⟨{ o with store }, s, .waiting latency point⟩ ∧
      it.Working current rest (Store.resume point { o with store } s)

structure Routine (σ κ π : Type) where
  /-- What is known of the body and of the recorded calls. -/
  Known : List (Lap κ) → Body → Prop
  /-- What else holds between two calls of the sessions, by how many were opened and which one is held. -/
  Holds : List (Lap κ) → Nat → Option (Observed.Session κ) → Prop
  stages : List (Lap κ) → Option (Observed.Session κ) →
    Itinerary (Observed σ) (Observed.Session κ) (Statement × π)

namespace Routine

def regime (routine : Routine σ κ π) : Regime σ κ π where
  Rests laps o l := routine.Known laps l.body ∧ routine.Holds laps o.opened l.session ∧ o.deeds = []
  Waits laps held o l point := routine.Known laps l.body ∧ (routine.stages laps held).Awaits o point

structure Leads (routine : Routine σ κ π) : Prop where
  leads : ∀ {laps l}, routine.Known laps l.body → ∀ held, (routine.stages laps held).Leads l
  endures : ∀ laps held, (routine.stages laps held).Endures
  takes : ∀ {laps o s}, routine.Holds laps o.opened (some s) → o.deeds = [] →
    Store.isClosed (Observed σ) s = false → (routine.stages laps (some s)).Taken o s
  dials : ∀ {laps o session}, routine.Holds laps o.opened session → o.deeds = [] → ∀ node,
    (routine.stages laps none).Dialled (Store.dial o node).1
  ends : ∀ {laps held o session answer body}, routine.Known laps body →
    (routine.stages laps held).Ended o session answer →
    let (body', ending) := body.conclude answer
    routine.Known (laps ++ [⟨held, o.deeds, ending⟩]) body' ∧
      ∀ session', (∀ s, session' = some s → session = some s) →
        routine.Holds (laps ++ [⟨held, o.deeds, ending⟩]) o.opened session'

variable {routine : Routine σ κ π} {laps : List (Lap κ)} {held : Option (Observed.Session κ)}
variable {l : Loop (Observed.Session κ)} {o : Observed σ}

theorem leaves_reaches (leads : routine.Leads) (known : routine.Known laps l.body)
    {turn : LoopTurn (Observed σ) (Observed.Session κ) (Statement × π)}
    (reaches : (routine.stages laps held).Reaches l turn) : routine.regime.Leaves laps held l turn := by
  cases reaches with
  | dialled latency dialled => exact .waits rfl nofun ⟨known, dialled⟩
  | rolling rolling => exact .waits rfl nofun ⟨known, _, rolling⟩
  | working working => exact .waits rfl nofun ⟨known, _, working⟩
  | ended ended =>
      obtain ⟨known', holds⟩ := leads.ends known ended
      exact Regime.leaves_conclude fun session' kept => ⟨known', holds session' kept, rfl⟩

theorem Leads.lasts (leads : routine.Leads) : routine.regime.Lasts where
  starts {laps o l} rests random := by
    obtain ⟨known, holds, none⟩ := rests
    refine leaves_reaches leads known (Itinerary.reaches_start (leads.leads known _) ?_ ?_ random)
    · intro s session
      obtain ⟨same, isOpen⟩ := Option.filter_eq_some_iff.mp session
      rw [session]
      exact leads.takes (same ▸ holds) none ((Bool.not_eq_true' _).mp isOpen)
    · intro bare
      rw [bare]
      exact leads.dials holds none l.node
  resumes {laps held o l point} waits expired random := by
    obtain ⟨known, awaits⟩ := waits
    have endures := leads.endures laps held
    refine leaves_reaches leads known (Itinerary.reaches_resume (leads.leads known _) ?_ expired random)
    cases point with
    | connecting | backingOff => exact awaits
    | rollingBack s point =>
        obtain ⟨latency, rolling⟩ := awaits
        exact (endures.rolling rolling o.store).2
    | working s current point rest =>
        obtain ⟨latency, working⟩ := awaits
        exact (endures.working working o.store).2
  restsOn rests _ := rests
  waitsOn {laps held o l point} waits store := by
    obtain ⟨known, awaits⟩ := waits
    have endures := leads.endures laps held
    refine ⟨known, ?_⟩
    cases point with
    | connecting => exact endures.dialled awaits store
    | backingOff => exact awaits
    | rollingBack s point =>
        obtain ⟨latency, rolling⟩ := awaits
        exact ⟨latency, (endures.rolling rolling store).1⟩
    | working s current point rest =>
        obtain ⟨latency, working⟩ := awaits
        exact ⟨latency, (endures.working working store).1⟩

end Routine

end

def gains {κ : Type} (g : Gauge) (laps : List (Lap κ)) : Nat :=
  (laps.map fun lap => g.gain (Label.ofText (Ending.message lap.ending)) (Ending.isAlarm lap.ending)).sum

namespace Shift

variable {σ κ π : Type}

inductive InFlight (regime : Regime σ κ π) (key : Key) (laps : List (Lap κ)) (held : Option (Observed.Session κ))
    (o : Observed σ) (calls : Nat) : Iteration (Observed.Session κ) (Statement × π) → Prop
  | waits {i : Iteration (Observed.Session κ) (Statement × π)} (own : i.loop.key = key)
      (inside : i.point ≠ .backingOff) (count : laps.length = calls)
      (waits : regime.Waits laps held o i.loop i.point) : InFlight regime key laps held o calls i
  | backsOff {l : Loop (Observed.Session κ)} {started : Instant} (own : l.key = key)
      (count : laps.length = calls + 1) (rests : regime.Rests laps o l) :
      InFlight regime key laps held o calls ⟨l, started, .backingOff⟩

/-- Where a loop may be, with the calls that were recorded and those that have come to their end. -/
inductive Stands (regime : Regime σ κ π) (key : Key) (laps : List (Lap κ)) (held : Option (Observed.Session κ))
    (o : Observed σ) (up : Bool) (calls early : Nat) : Course (Observed.Session κ) (Statement × π) → Prop
  | idle {l : Loop (Observed.Session κ)} (own : l.key = key) (count : laps.length = calls)
      (rests : regime.Rests laps o l) : Stands regime key laps held o up calls early (.landed (.iteration l))
  | iterating {wait : Wait} {i : Iteration (Observed.Session κ) (Statement × π)}
      (flight : InFlight regime key laps held o calls i) :
      Stands regime key laps held o up calls early (.waiting wait (.iteration i))
  | resting {wait : Wait} {l : Loop (Observed.Session κ)} {n : Nat} (own : l.key = key)
      (count : laps.length = calls) (run : calls = early + n) (rests : regime.Rests laps o l) :
      Stands regime key laps held o up calls early (.waiting wait (.resting l up n))
  | running {wait : Wait} {i : Iteration (Observed.Session κ) (Statement × π)} {n : Nat}
      (run : calls = early + n) (flight : InFlight regime key laps held o calls i) :
      Stands regime key laps held o up calls early (.waiting wait (.running i up n))
  | ended {l : Loop (Observed.Session κ)} {n : Nat} (count : laps.length = calls) (run : calls = early + n)
      (rests : regime.Rests laps o l) : Stands regime key laps held o up calls early (.landed (.run n))

/-- Every gauge of the loop shows what its calls have added, in every window. -/
structure Sound (regime : Regime σ κ π) (s : Shift σ κ π) : Prop where
  stands : Stands regime s.key s.laps s.held s.shared.store s.flag.isUp s.calls s.early s.course
  registered : s.shared.registry.contains s.key = true
  taken : List.Forall₂ (fun snapshot window => ∀ g : Gauge, g.IsOf s.key → g.shown snapshot = gains g window)
    s.snapshots s.windows
  live : ∀ g : Gauge, g.IsOf s.key → g.live s.shared.registry = gains g s.latest

/-! ### The loop -/

variable {regime : Regime σ κ π} {key : Key} {laps : List (Lap κ)} {held held' : Option (Observed.Session κ)}
variable {o : Observed σ} {up : Bool} {calls early : Nat} {l : Loop (Observed.Session κ)} {started now : Instant}
variable {turn : LoopTurn (Observed σ) (Observed.Session κ) (Statement × π)}

def courseOf (up : Bool) (started : Instant) (l : Loop (Observed.Session κ))
    (next : LoopNext (Observed.Session κ) (Statement × π)) :
    Option Nat → Course (Observed.Session κ) (Statement × π)
  | none => .ofIteration started l next
  | some n => .ofRun up n started l next

theorem stands_done {run : Option Nat} (own : l.key = key) (count : laps.length = calls + 1)
    (runs : ∀ n, run = some n → calls = early + n) (rests : regime.Rests laps o l) :
    let course := courseOf up started l .done run
    Stands regime key laps held o up (calls + if course.isCompleted then 1 else 0) early course := by
  cases run with
  | none => exact .idle own count rests
  | some n => exact .resting own count (congrArg (· + 1) (runs n rfl)) rests

theorem stands_waiting {run : Option Nat} {wait : Wait} {point : Point (Observed.Session κ) (Statement × π)}
    (runs : ∀ n, run = some n → calls = early + n)
    (flight : InFlight regime key laps held o calls ⟨l, started, point⟩) :
    let course := courseOf up started l (.waiting wait point) run
    Stands regime key laps held o up (calls + if course.isCompleted then 1 else 0) early course := by
  cases run with
  | none => exact .iterating flight
  | some n => exact .running (runs n rfl) flight

theorem Stands.setFlag {course : Course (Observed.Session κ) (Statement × π)} (value : Bool)
    (stands : Stands regime key laps held o up calls early course) :
    Stands regime key laps held o value calls early (course.setFlag value) := by
  cases stands with
  | idle own count rests => exact .idle own count rests
  | iterating flight => exact .iterating flight
  | resting own count run rests => exact .resting own count run rests
  | running run flight => exact .running run flight
  | ended count run rests => exact .ended count run rests

variable {s : Shift σ κ π}

theorem gains_cons (g : Gauge) (lap : Lap κ) (laps : List (Lap κ)) :
    gains g (lap :: laps) =
      g.gain (Label.ofText (Ending.message lap.ending)) (Ending.isAlarm lap.ending) + gains g laps :=
  List.sum_cons

theorem gains_append (g : Gauge) (laps : List (Lap κ)) (lap : Lap κ) :
    gains g (laps ++ [lap]) =
      gains g laps + g.gain (Label.ofText (Ending.message lap.ending)) (Ending.isAlarm lap.ending) := by
  rw [gains, List.map_append, List.sum_append, List.map_singleton, List.sum_singleton]
  rfl

theorem sum_shown {shown : Snapshot → Nat} {count : List (Lap κ) → Nat} {snapshots : List Snapshot}
    {windows : List (List (Lap κ))} (append : ∀ laps more, count (laps ++ more) = count laps + count more)
    (none : count [] = 0)
    (same : List.Forall₂ (fun snapshot window => shown snapshot = count window) snapshots windows) :
    (snapshots.map shown).sum = count windows.flatten := by
  induction same with
  | nil => exact none.symm
  | cons first _ ih => rw [List.map_cons, List.sum_cons, first, ih, List.flatten_cons, append]

theorem laps_append (windows : List (List (Lap κ))) (latest : List (Lap κ)) (lap : Lap κ) :
    windows.flatten ++ (latest ++ [lap]) = windows.flatten ++ latest ++ [lap] :=
  (List.append_assoc ..).symm

theorem sound_proceed {registry : Registry} {run : Option Nat} (leaves : regime.Leaves s.laps held l turn)
    (own : l.key = s.key) (count : s.laps.length = s.calls) (runs : ∀ n, run = some n → s.calls = s.early + n)
    (registered : registry.contains s.key = true)
    (taken : List.Forall₂ (fun snapshot window => ∀ g : Gauge, g.IsOf s.key → g.shown snapshot = gains g window)
      s.snapshots s.windows)
    (live : ∀ g : Gauge, g.IsOf s.key → g.live registry = gains g s.latest) :
    Sound regime (s.proceed held turn.ending
      (⟨turn.store, record registry turn.loop.key started now turn.ending⟩,
        courseOf s.flag.isUp started turn.loop turn.next run)) := by
  cases leaves with
  | waits key inside waits =>
      exact ⟨stands_waiting runs (.waits (key.trans own) inside count waits), registered, taken, live⟩
  | @ends o l' ending next key final rests =>
      have own' : l'.key = s.key := key.trans own
      have count' : (s.laps ++ [Lap.mk held o.deeds ending]).length = s.calls + 1 := by simp [count]
      refine ⟨?_, ?_, taken, fun g (own : g.IsOf s.key) => ?_⟩
      · simp only [proceed, Shift.laps, laps_append]
        cases next with
        | done => exact stands_done own' count' runs rests
        | waiting wait point =>
            cases point with
            | backingOff => exact stands_waiting runs (.backsOff own' count' rests)
            | connecting | rollingBack | working => cases final
      · exact (contains_record registry _ _ _ _ _).trans registered
      -- The iteration is recorded under the key of the shift, so each of its gauges gains it.
      · let op : Op := .record l'.key (Label.ofText (Ending.message ending)) (.ofNanos (now - started))
          (Ending.isAlarm ending)
        have allowed : op.isAllowed registry = true := (congrArg registry.contains own').trans registered
        have recorded := g.live_perform allowed
        have chosen : g.chosen l'.key = true := by rw [own', own, decide_eq_true rfl]
        simp only [op, Gauge.gained, chosen, if_true] at recorded
        simp only [proceed, gains_append]
        rw [← live g own]
        exact recorded

variable [Store σ κ π]

theorem sound_begin (run : Option Nat) (lasts : regime.Lasts) (sound : s.Sound regime) (own : l.key = s.key)
    (count : s.laps.length = s.calls) (runs : ∀ n, run = some n → s.calls = s.early + n)
    (rests : regime.Rests s.laps s.shared.store l) (random : Nat) (now : Instant) :
    let turn := l.start random s.shared.store
    Sound regime (s.proceed (l.openSession? (Store.isClosed (Observed σ))) turn.ending
      (⟨turn.store, record (s.shared.registry.update l.key (·.start now)) turn.loop.key now now turn.ending⟩,
        courseOf s.flag.isUp now turn.loop turn.next run)) := by
  refine sound_proceed (lasts.starts rests random) own count runs ?_ sound.taken fun g isOf => ?_
  · exact (Registry.contains_update _).trans sound.registered
  · have allowed : (Op.start l.key now).isAllowed s.shared.registry = true :=
      (congrArg s.shared.registry.contains own).trans sound.registered
    exact (g.live_perform allowed).trans (sound.live g isOf)

theorem sound_goesOn (run : Option Nat) {i : Iteration (Observed.Session κ) (Statement × π)} (lasts : regime.Lasts)
    (sound : s.Sound regime) (flight : InFlight regime s.key s.laps s.held s.shared.store s.calls i)
    (runs : ∀ n, run = some n → s.calls = s.early + n) (expired : Bool) (random : Nat) :
    let turn := i.loop.resume i.point expired random s.shared.store
    Sound regime (s.proceed s.held turn.ending
      (⟨turn.store, record s.shared.registry turn.loop.key i.started now turn.ending⟩,
        courseOf s.flag.isUp i.started turn.loop turn.next run)) := by
  cases flight with
  | waits own inside count waits =>
      exact sound_proceed (lasts.resumes waits expired random) own count runs sound.registered sound.taken sound.live
  | backsOff own count rests =>
      exact ⟨stands_done own count runs rests, sound.registered, sound.taken, sound.live⟩

theorem Sound.advance (lasts : regime.Lasts) (sound : s.Sound regime) {wait : Wait}
    {task : Task (Observed.Session κ) (Statement × π)}
    (stands : Stands regime s.key s.laps s.held s.shared.store s.flag.isUp s.calls s.early (.waiting wait task))
    (expired : Bool) (random : Nat) (now : Instant) : (s.advance task expired random now).Sound regime := by
  cases stands with
  | iterating flight => exact sound_goesOn none lasts sound flight nofun expired random
  | @running _ i n run flight =>
      exact sound_goesOn (some n) lasts sound flight (fun _ same => by cases same; exact run) expired random
  | @resting _ l n own count run rests =>
      cases up : s.flag.isUp with
      | true =>
          have began := sound_begin (some n) lasts sound own count
            (fun _ same => by cases same; exact run) rests random now
          rw [up] at began
          exact began
      | false =>
          exact ⟨.ended count run rests, sound.registered, sound.taken, sound.live⟩

/-! ### Other events -/

omit [Store σ κ π] in
theorem contains_perform {r : Registry} (registered : r.contains key = true) (op : Op) :
    (r.perform op).contains key = true := by
  cases op with
  | register other => exact Registry.contains_register.trans (by rw [registered, Bool.or_true])
  | start | record | violate => exact (Registry.contains_update _).trans registered

theorem live_perform_other {g : Gauge} (isOf : g.IsOf key) {op : Op} (other : op.key ≠ key)
    (r : Registry) : g.live (r.perform op) = g.live r := by
  have unseen : g.chosen op.key = false := (isOf op.key).trans (decide_eq_false other)
  cases allowed : op.isAllowed r with
  | false => rw [Registry.perform_of_not_allowed allowed]
  | true =>
      rw [g.live_perform allowed]
      cases op with
      | register | start => rfl
      | record k label latency violation | violate k => simp [Gauge.gained, show g.chosen k = false from unseen]

theorem InFlight.change (lasts : regime.Lasts) {i : Iteration (Observed.Session κ) (Statement × π)} (store : σ)
    (flight : InFlight regime key laps held o calls i) : InFlight regime key laps held { o with store } calls i := by
  cases flight with
  | waits own inside count waits => exact .waits own inside count (lasts.waitsOn waits store)
  | backsOff own count rests => exact .backsOff own count (lasts.restsOn rests store)

theorem Stands.change (lasts : regime.Lasts) {course : Course (Observed.Session κ) (Statement × π)} (store : σ)
    (stands : Stands regime key laps held o up calls early course) :
    Stands regime key laps held { o with store } up calls early course := by
  cases stands with
  | idle own count rests => exact .idle own count (lasts.restsOn rests store)
  | iterating flight => exact .iterating (flight.change lasts store)
  | resting own count run rests => exact .resting own count run (lasts.restsOn rests store)
  | running run flight => exact .running run (flight.change lasts store)
  | ended count run rests => exact .ended count run (lasts.restsOn rests store)

theorem Sound.step (lasts : regime.Lasts) (sound : s.Sound regime) (event : Event σ) : (s.step event).Sound regime := by
  have stands := sound.stands
  cases event with
  | iterate random now =>
      simp only [Shift.step]
      split
      · next l at_ =>
          rw [at_] at stands
          cases stands with
          | idle own count rests => exact sound_begin none lasts sound own count nofun rests random now
      · exact sound
  | run random now =>
      simp only [Shift.step]
      split
      · next l at_ =>
          rw [at_] at stands
          cases stands with
          | idle own count rests =>
              have early : Sound regime { s with early := s.calls } := by
                refine ⟨?_, sound.registered, sound.taken, sound.live⟩
                rw [at_]
                exact .idle own count rests
              have resting : Stands regime s.key s.laps s.held s.shared.store s.flag.isUp s.calls s.calls
                  (.waiting (.pause .zero) (.resting l s.flag.isUp 0)) := .resting own count rfl rests
              exact early.advance lasts resting false random now
      · exact sound
  | wake expired random now =>
      simp only [Shift.step]
      split
      · next wait task at_ => exact sound.advance lasts (at_ ▸ stands) expired random now
      · exact sound
  | setFlag value letGo =>
      exact ⟨stands.setFlag _, sound.registered, sound.taken, sound.live⟩
  | interfere change =>
      exact ⟨stands.change lasts _, sound.registered, sound.taken, sound.live⟩
  | others op =>
      simp only [Shift.step]
      split
      · exact sound
      · next other =>
          refine ⟨stands, contains_perform sound.registered op, sound.taken, fun g isOf => ?_⟩
          exact (live_perform_other isOf other s.shared.registry).trans (sound.live g isOf)
  | takeSnapshot now =>
      refine ⟨?_, Registry.contains_clear.trans sound.registered, ?_, fun g _ => g.live_takeSnapshot _ now⟩
      · have same : (s.step (.takeSnapshot now)).laps = s.laps := by simp [Shift.step, Shift.laps]
        rw [same]
        exact stands
      · refine List.rel_append sound.taken (.cons (fun g isOf => ?_) .nil)
        exact (g.shown_takeSnapshot _ now).trans (sound.live g isOf)

theorem sound_work (lasts : regime.Lasts) {store : σ} {node : Nat} {body : Body} {settings : Settings}
    (rests : regime.Rests [] ⟨store, [], 0⟩ { node, body, settings }) (events : List (Event σ)) :
    (work store node body settings events).Sound regime := by
  refine List.foldlRecOn (motive := Sound regime) events Shift.step ?_ fun _ sound event _ => sound.step lasts event
  refine ⟨.idle rfl rfl rests, ?_, .nil, fun g _ => Registry.sum_register g.empty⟩
  exact Registry.contains_register.trans (by simp [new])

end Shift

end LedgerDrill.Workload
