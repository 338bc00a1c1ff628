import LedgerDrill.Proofs.Workload.Shifts
import Mathlib.Data.List.Induction

namespace LedgerDrill

def Deed.reading? : Deed → Option Int
  | .told _ .total (.ok (.total balance)) => some balance
  | _ => none

namespace Workload
open Outcome

def changes (l : List Int) : Nat := (l.zip l.tail).countP fun (before, after) => before != after

theorem changes_append (first : Int) (readings : List Int) (last : Int) :
    changes (first :: (readings ++ [last])) =
      changes (first :: readings) + if last != readings.getLast?.getD first then 1 else 0 := by
  induction readings generalizing first with
  | nil => simp [changes, bne_comm]
  | cons next rest ih =>
      have split (l : List Int) : changes (first :: next :: l) =
          changes (next :: l) + if first != next then 1 else 0 := by
        simp [changes, List.countP_cons]
      rw [List.cons_append, split, ih, split, List.getLast?_cons, Option.getD_some]
      omega

namespace Lap

variable {κ : Type}

def readings (lap : Lap κ) : List Int := lap.deeds.filterMap Deed.reading?

def isViolation (lap : Lap κ) : Bool := Ending.isAlarm lap.ending

def label (lap : Lap κ) : String := Label.ofText (Ending.message lap.ending)

def Compares (last : Int) (lap : Lap κ) : Prop :=
  lap.readings = [] ∧ lap.isViolation = false ∨
    ∃ balance, lap.readings = [balance] ∧ lap.ending = .ok (balance != last)

variable {lap : Lap κ} {last : Int} {changed : Bool}

theorem isViolation_of_ok (told : lap.ending = .ok changed) : lap.isViolation = changed := by
  rw [isViolation, told]
  cases changed <;> rfl

theorem label_of_isViolation (violation : lap.isViolation = true) : lap.label = commit := by
  obtain ⟨held, deeds, ending⟩ := lap
  cases ending with
  | error e => cases violation
  | ok changed => exact Label.ofText_commit

namespace Compares

theorem isViolation_iff (compares : lap.Compares last) :
    lap.isViolation = true ↔ ∃ balance, lap.readings = [balance] ∧ balance ≠ last := by
  rcases compares with ⟨none, silent⟩ | ⟨balance, one, told⟩
  · simp [none, silent]
  · simp [one, isViolation_of_ok told]

theorem of_error {e : StoreError} (compares : lap.Compares last) (failed : lap.ending = .error e) :
    lap.readings = [] ∧ lap.isViolation = false := by
  rcases compares with silent | ⟨balance, -, told⟩
  · exact silent
  · cases failed.symm.trans told

end Compares

end Lap

section
variable {κ : Type} {expected : Int} {laps : List (Lap κ)} {lap : Lap κ}

/-- The last total that was read, or the one that was expected. -/
def remembered (expected : Int) (laps : List (Lap κ)) : Int := (laps.flatMap Lap.readings).getLast?.getD expected

def Compared (expected : Int) (laps : List (Lap κ)) : Prop :=
  ∀ earlier lap later, laps = earlier ++ lap :: later → lap.Compares (remembered expected earlier)

theorem Compared.append (compared : Compared expected laps) (compares : lap.Compares (remembered expected laps)) :
    Compared expected (laps ++ [lap]) := by
  intro earlier other later split
  rcases List.eq_nil_or_concat later with rfl | ⟨later, final, rfl⟩
  · obtain ⟨rfl, same⟩ := List.append_inj' split rfl
    cases same
    exact compares
  · rw [List.concat_eq_append, ← List.cons_append, ← List.append_assoc] at split
    exact compared earlier other later (List.append_inj' split rfl).1

theorem remembered_append (lap : Lap κ) :
    remembered expected (laps ++ [lap]) = lap.readings.getLast?.getD (remembered expected laps) := by
  simp [remembered, List.getLast?_append]

theorem countP_isViolation (compared : Compared expected laps) :
    laps.countP Lap.isViolation = changes (expected :: laps.flatMap Lap.readings) := by
  induction laps using List.reverseRecOn with
  | nil => rfl
  | append_singleton laps lap ih =>
      have before : Compared expected laps := fun earlier other later split =>
        compared earlier other (later ++ [lap]) (by simp [split])
      rw [List.countP_append, ih before, List.countP_singleton, List.flatMap_append, List.flatMap_singleton]
      rcases compared laps lap [] rfl with ⟨none, silent⟩ | ⟨balance, one, told⟩
      · simp [none, silent]
      · rw [one, changes_append]
        rw [Lap.isViolation_of_ok told]
        rfl

end

/-! ## The loop -/

def readingsOf : Answer → List Int
  | .ok (.total balance) => [balance]
  | _ => []

theorem reading?_told (id : Nat) (answer : Answer) :
    ([Deed.told id .total answer].filterMap Deed.reading?) = readingsOf answer := by
  cases answer with
  | error e => rfl
  | ok reply => cases reply <;> rfl

theorem bind_total (answer : Answer) : answer.bind (checkReply .total) = answer := by
  cases answer <;> rfl

variable {σ κ π : Type}

def readings (o : Observed σ) : List Int := o.deeds.filterMap Deed.reading?

def looking (σ κ π : Type) : Itinerary (Observed σ) (Observed.Session κ) (Statement × π) where
  Dialled o := readings o = []
  Ready o _ := readings o = []
  Rolling turn := readings turn.store = [] ∧
    ∀ latency statement point, turn.next = .waiting latency (statement, point) → statement = .rollback
  Working current rest turn := current = .total ∧ rest = [] ∧
    (∀ answer, turn.next = .answered answer → readings turn.store = readingsOf answer) ∧
    ∀ latency statement point, turn.next = .waiting latency (statement, point) →
      statement = .total ∧ readings turn.store = []
  Ended o _ answer := readings o = readingsOf answer

theorem readings_note (o : Observed σ) (store : σ) (deeds : List Deed) :
    readings (o.note store deeds) = readings o ++ deeds.filterMap Deed.reading? :=
  List.filterMap_append

theorem looking_rolling {o : Observed σ} (unread : readings o = []) (id : Nat) (turn : Turn σ κ π) :
    (looking σ κ π).Rolling (o.turn id .rollback turn) := by
  rcases o.turn_cases id .rollback turn with ⟨store, session, answer, -, same⟩ |
    ⟨store, session, latency, point, -, same⟩ <;> rw [same]
  · refine ⟨?_, nofun⟩
    simp [readings_note, unread, Deed.reading?]
  · refine ⟨?_, fun _ _ _ next => by cases next; rfl⟩
    simp [readings_note, unread]

theorem looking_working {o : Observed σ} (unread : readings o = []) (id : Nat) (turn : Turn σ κ π) :
    (looking σ κ π).Working .total [] (o.turn id .total turn) := by
  rcases o.turn_cases id .total turn with ⟨store, session, answer, -, same⟩ |
    ⟨store, session, latency, point, -, same⟩ <;> rw [same]
  · refine ⟨rfl, rfl, ?_, nofun⟩
    rintro _ ⟨⟩
    rw [readings_note, unread, reading?_told]
    rfl
  · refine ⟨rfl, rfl, nofun, ?_⟩
    rintro _ _ _ ⟨⟩
    simp [readings_note, unread]

section
variable [Store σ κ π] {l : Loop (Observed.Session κ)} {o : Observed σ}

theorem readings_sent {s : Observed.Session κ} (unread : readings o = []) (statement : Statement) :
    readings (o.sent statement s) = [] := by
  simp [Observed.sent, readings_note, unread, Deed.reading?]

theorem looking_taken {s : Observed.Session κ} (unread : readings o = []) :
    (looking σ κ π).Taken o s :=
  ⟨fun _ => unread, fun _ => looking_rolling (readings_sent unread _) _ _⟩

theorem looking_leads {watch : Watch} (body : l.body = .sumTotal watch) :
    (looking σ κ π).Leads l where
  expired unread := unread
  refused unread result := by
    obtain ⟨store, rfl⟩ := Observed.accept_error result
    exact (readings_note ..).trans ((List.append_nil _).trans unread)
  accepted unread result := by
    obtain ⟨store, session, -, rfl, rfl⟩ := Observed.accept_ok result
    exact looking_taken (List.filterMap_append.trans ((List.append_nil _).trans unread))
  stuck rolling _ := rolling.1
  rolledBack rolling _ := rolling.1
  unplanned _ plan := by
    rw [body] at plan
    cases plan
  planned {o s random first rest} unread plan := by
    rw [body] at plan
    cases plan
    exact looking_working (readings_sent unread _) _ _
  failed working next checked := by
    obtain ⟨rfl, -, told, -⟩ := working
    rw [bind_total] at checked
    exact told _ (checked ▸ next)
  passed working := by
    obtain ⟨-, none, -⟩ := working
    cases none
  completed working next checked := by
    obtain ⟨rfl, -, told, -⟩ := working
    rw [bind_total] at checked
    exact told _ (checked ▸ next)

/-! ## All calls -/

def watching (σ κ π : Type) (expected : Int) : Routine σ κ π where
  Known laps body := Compared expected laps ∧ body = .sumTotal ⟨remembered expected laps⟩
  Holds _ _ _ := True
  stages _ _ := looking σ κ π

variable {expected : Int} {laps : List (Lap κ)}

theorem conclude_compares (held : Option (Observed.Session κ)) (last : Int) {deeds : List Deed} {answer : Answer}
    (read : deeds.filterMap Deed.reading? = readingsOf answer) :
    let (body, ending) := Body.conclude (.sumTotal ⟨last⟩) answer
    (Lap.mk held deeds ending).Compares last ∧
      body = .sumTotal ⟨(deeds.filterMap Deed.reading?).getLast?.getD last⟩ := by
  cases answer with
  | error e => exact ⟨Or.inl ⟨read, rfl⟩, by rw [read]; rfl⟩
  | ok reply =>
      cases reply with
      | total balance => exact ⟨Or.inr ⟨balance, read, rfl⟩, by rw [read]; rfl⟩
      | done | rows count | digest text | prepared count => exact ⟨Or.inl ⟨read, rfl⟩, by rw [read]; rfl⟩

theorem looking_endures : (looking σ κ π).Endures where
  dialled unread _ := unread
  rolling {o s latency point} rolling store := by
    obtain ⟨statement, point⟩ := point
    obtain ⟨unread, waits⟩ := rolling
    obtain rfl := waits _ _ _ rfl
    exact ⟨⟨unread, waits⟩, looking_rolling unread s.id _⟩
  working {current rest o s latency point} working store := by
    obtain ⟨statement, point⟩ := point
    obtain ⟨rfl, rfl, -, waits⟩ := working
    obtain ⟨rfl, unread⟩ := waits _ _ _ rfl
    refine ⟨⟨rfl, rfl, nofun, ?_⟩, looking_working unread s.id _⟩
    rintro _ _ _ ⟨⟩
    exact ⟨rfl, unread⟩

theorem watching_leads (expected : Int) : (watching σ κ π expected).Leads where
  leads known _ := looking_leads known.2
  endures _ _ := looking_endures
  takes _ none _ := looking_taken (congrArg (List.filterMap Deed.reading?) none)
  dials _ none _ := (readings_note ..).trans (by rw [readings, none]; rfl)
  ends {laps held o session answer body} known read := by
    obtain ⟨compared, rfl⟩ := known
    obtain ⟨compares, remembers⟩ := conclude_compares held (remembered expected laps) read
    refine ⟨⟨compared.append compares, ?_⟩, fun _ _ => trivial⟩
    rw [remembered_append]
    exact remembers

end

/-! ## Violations -/

def Course.loop? {κ π : Type} : Course κ π → Option (Loop κ)
  | .landed (.iteration l) | .waiting _ (.resting l _ _) => some l
  | .waiting _ (.iteration i) | .waiting _ (.running i _ _) => some i.loop
  | .landed _ | .waiting _ (.statement ..) => none

theorem sum_indicator {α : Type} (p : α → Bool) (l : List α) :
    (l.map fun a => if p a then 1 else 0).sum = l.countP p := by
  induction l with
  | nil => rfl
  | cons a l ih => rw [List.map_cons, List.sum_cons, ih, List.countP_cons, Nat.add_comm]

theorem gains_violations (key : Key) (laps : List (Lap κ)) :
    gains (Gauge.violations key) laps = laps.countP Lap.isViolation :=
  sum_indicator Lap.isViolation laps

theorem gains_outcomes (key : Key) (label : String) (laps : List (Lap κ)) :
    gains (Gauge.outcomes key label) laps = laps.countP (·.label == label) := by
  rw [← sum_indicator]
  simp only [gains, Gauge.outcomes, Lap.label, beq_iff_eq]

namespace Shift

def readings (s : Shift σ κ π) : List Int := s.deeds.filterMap Deed.reading?

/-- How a shift of a loop is seen that watches the total. -/
structure Watches (expected : Int) (s : Shift σ κ π) : Prop where
  /-- The violations of all windows are the changes of what was read. -/
  changes : (s.snapshots.map (·.alarms s.key)).sum + s.shared.registry.alarms s.key = changes (expected :: s.readings)
  /-- A window shows the violations and the outcomes of the calls that were recorded in it. -/
  windows : List.Forall₂ (fun snapshot window => snapshot.alarms s.key = window.countP Lap.isViolation ∧
    ∀ label, snapshot.count s.key label = window.countP (·.label == label)) s.snapshots s.windows
  latest : s.shared.registry.alarms s.key = s.latest.countP Lap.isViolation ∧
    ∀ label, s.shared.registry.count s.key label = s.latest.countP (·.label == label)
  /-- A violation is told by the call that has read a total other than the last one, which is recorded as a commit. -/
  violations : ∀ earlier lap later, s.laps = earlier ++ lap :: later →
    (lap.isViolation = true ↔ ∃ balance, lap.readings = [balance] ∧ balance ≠ remembered expected earlier) ∧
    (lap.isViolation = true → lap.label = commit)
  /-- A call that fails tells no violation, and leaves what is remembered as it was. -/
  failures : ∀ earlier lap later, s.laps = earlier ++ lap :: later → ∀ e, lap.ending = .error e →
    lap.readings = [] ∧ lap.isViolation = false ∧
      remembered expected (earlier ++ [lap]) = remembered expected earlier
  recorded : s.readings = s.laps.flatMap Lap.readings
  remembers : ∀ l, s.course.loop? = some l → l.body = .sumTotal ⟨s.readings.getLast?.getD expected⟩

variable {expected : Int} {key : Key} {laps : List (Lap κ)} {held : Option (Observed.Session κ)} {o : Observed σ}
variable {up : Bool} {calls early : Nat} {s : Shift σ κ π}

theorem watching_flight {i : Iteration (Observed.Session κ) (Statement × π)}
    (flight : InFlight (watching σ κ π expected).regime key laps held o calls i) :
    Compared expected laps ∧ i.loop.body = .sumTotal ⟨remembered expected laps⟩ ∧ Workload.readings o = [] := by
  cases flight with
  | backsOff own count rests =>
      obtain ⟨⟨compared, body⟩, -, none⟩ := rests
      exact ⟨compared, body, by rw [Workload.readings, none]; rfl⟩
  | waits own inside count waits =>
      obtain ⟨l, started, point⟩ := i
      obtain ⟨⟨compared, body⟩, awaits⟩ := waits
      refine ⟨compared, body, ?_⟩
      cases point with
      | connecting => exact awaits
      | backingOff => exact absurd awaits id
      | rollingBack s point =>
          obtain ⟨latency, unread, -⟩ := awaits
          exact unread
      | working s current point rest =>
          obtain ⟨latency, -, -, -, waits⟩ := awaits
          exact (waits _ _ _ rfl).2

theorem watching_stands {course : Course (Observed.Session κ) (Statement × π)}
    (stands : Stands (watching σ κ π expected).regime key laps held o up calls early course) :
    Compared expected laps ∧ Workload.readings o = [] ∧
      ∀ l, course.loop? = some l → l.body = .sumTotal ⟨remembered expected laps⟩ := by
  cases stands with
  | idle own count rests | resting own count run rests =>
      obtain ⟨⟨compared, body⟩, -, none⟩ := rests
      exact ⟨compared, by rw [Workload.readings, none]; rfl, fun l same => by cases same; exact body⟩
  | ended count run rests =>
      obtain ⟨⟨compared, -⟩, -, none⟩ := rests
      exact ⟨compared, by rw [Workload.readings, none]; rfl, nofun⟩
  | iterating flight | running run flight =>
      obtain ⟨compared, body, none⟩ := watching_flight flight
      exact ⟨compared, none, fun l same => by cases same; exact body⟩

theorem Sound.watches (sound : s.Sound (watching σ κ π expected).regime) : s.Watches expected := by
  obtain ⟨compared, none, body⟩ := watching_stands sound.stands
  have recorded : s.readings = s.laps.flatMap Lap.readings := by
    have split : s.readings = (s.laps.flatMap (·.deeds)).filterMap Deed.reading? ++ Workload.readings s.shared.store :=
      List.filterMap_append
    rw [split, none, List.append_nil, List.filterMap_flatMap]
    rfl
  have violations : (Gauge.violations s.key).IsOf s.key := fun _ => rfl
  have outcomes (label : String) : (Gauge.outcomes s.key label).IsOf s.key := fun _ => rfl
  have shown : List.Forall₂ (fun snapshot window => snapshot.alarms s.key = window.countP Lap.isViolation ∧
      ∀ label, snapshot.count s.key label = window.countP (·.label == label)) s.snapshots s.windows :=
    sound.taken.imp fun _ window tallied => ⟨(tallied _ violations).trans (gains_violations s.key window),
      fun label => (tallied _ (outcomes label)).trans (gains_outcomes s.key label window)⟩
  have live : s.shared.registry.alarms s.key = s.latest.countP Lap.isViolation := by
    rw [← live_violations, sound.live _ violations, gains_violations]
  refine ⟨?_, shown, ⟨live, fun label => ?_⟩, ?_, ?_, recorded, ?_⟩
  · rw [recorded, ← countP_isViolation compared, Shift.laps, List.countP_append, live]
    congr 1
    exact sum_shown (fun _ _ => List.countP_append) rfl (shown.imp fun _ _ tallied => tallied.1)
  · rw [← live_outcomes, sound.live _ (outcomes label), gains_outcomes]
  · intro earlier lap later split
    exact ⟨(compared earlier lap later split).isViolation_iff, Lap.label_of_isViolation⟩
  · intro earlier lap later split e failed
    obtain ⟨none, silent⟩ := (compared earlier lap later split).of_error failed
    exact ⟨none, silent, by rw [remembered_append, none]; rfl⟩
  · rw [recorded]
    exact body

variable [Store σ κ π]

/-- Whatever fails or succeeds on any store, a loop that watches the total counts the changes of what it has read,
each with the reading that it saw it by. -/
theorem violations_are_changes (store : σ) (node : Nat) (expected : Int) (settings : Settings)
    (events : List (Event σ)) :
    let s : Shift σ κ π := work store node (.sumTotal ⟨expected⟩) settings events
    s.Watches expected ∧ ∀ event, (s.step event).plain = plainStep s.key s.flag s.plain event := by
  intro s
  refine ⟨Sound.watches (sound_work (watching_leads expected).lasts ⟨⟨?_, rfl⟩, trivial, rfl⟩ events), plain_step s⟩
  exact fun earlier lap later split => absurd split.symm (by simp)

end Shift

end Workload

end LedgerDrill
