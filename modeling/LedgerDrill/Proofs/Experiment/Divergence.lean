import LedgerDrill.Proofs.Cluster.Digests
import LedgerDrill.Proofs.Experiment.Usage

namespace LedgerDrill
open Cluster (Session Waiting)

namespace Timeline
open Workload Cluster

/-! ## The moments of a run -/

def named {α : Type} (entries : List (Worker.Name × α)) : List (Worker.Name × α) := entries.filter (·.1.isSome)

/-- The tasks of the client itself. -/
def unnamed {α : Type} (entries : List (Worker.Name × α)) : List (Worker.Name × α) := entries.filter (·.1.isNone)

/-- Nothing happens to what is shared but steps of the loops, each at its time. -/
inductive Passes : Workplace Cluster Session Waiting → Workplace Cluster Session Waiting → Prop
  | done (p : Workplace Cluster Session Waiting) : Passes p p
  | idles {p q r : Workplace Cluster Session Waiting} (shared : q.shared = p.shared)
      (flights : named q.flights = named p.flights) (later : Passes q r) : Passes p r
  | wakes {p r : Workplace Cluster Session Waiting} {key : Outcome.Key} {flight : Flight Session Waiting}
      {others : List (Worker.Name × Flight Session Waiting)}
      (found : earliest? p.flights = some ((some key, flight), others))
      (later : Passes (p.wake (some key) flight others) r) : Passes p r

/-- Nodes tell their digests one after the other, each from the table that it holds at that moment. -/
inductive Told : List Nat → Workplace Cluster Session Waiting → List Accounts → Workplace Cluster Session Waiting → Prop
  | nil {p p' : Workplace Cluster Session Waiting} (passes : Passes p p') : Told [] p [] p'
  | cons {p q p' : Workplace Cluster Session Waiting} {node epoch : Nat} {nodes : List Nat} {tables : List Accounts}
      {c : Cluster} {text : String} (passes : Passes p q) (answers : q.shared.store.digest node epoch = .ok (c, text))
      (later : Told nodes { q with shared.store := c } tables p') :
      Told (node :: nodes) p (c.accountsOf node :: tables) p'

/-- The client waits for nothing, and has left nothing to itself. -/
structure Free (p : Workplace Cluster Session Waiting) : Prop where
  flights : unnamed p.flights = []
  landed : unnamed p.landed = []

variable {p p' q r : Workplace Cluster Session Waiting}

theorem Passes.trans (first : Passes p q) (second : Passes q r) : Passes p r := by
  induction first with
  | done => exact second
  | idles shared flights _ ih => exact .idles shared flights (ih second)
  | wakes found _ ih => exact .wakes found (ih second)

theorem Passes.idle (shared : q.shared = p.shared) (flights : named q.flights = named p.flights) : Passes p q :=
  .idles shared flights (.done q)

theorem Told.after {nodes : List Nat} {tables : List Accounts} (passes : Passes p q) (told : Told nodes q tables r) :
    Told nodes p tables r := by
  cases told with
  | nil passes' => exact .nil (passes.trans passes')
  | cons passes' answers later => exact .cons (passes.trans passes') answers later

theorem lookup_none {ν α : Type} [DecidableEq (Option ν)] (entries : List (Option ν × α)) :
    entries.lookup none = (entries.filter (·.1.isNone)).head?.map (·.2) := by
  induction entries with
  | nil => rfl
  | cons entry entries ih =>
      obtain ⟨_ | key, a⟩ := entry
      · simp
      · have apart : ((none : Option ν) == some key) = false := beq_eq_false_iff_ne.mpr nofun
        rw [List.lookup_cons, apart, ih]
        rfl

theorem flight?_none (p : Workplace Cluster Session Waiting) :
    p.flight? none = (unnamed p.flights).head?.map (·.2) := lookup_none p.flights

theorem collect_none {landing : Landing Session} (told : unnamed p.landed = [(none, landing)]) : ∃ p',
    p.collect none = (some landing, p') ∧ p'.shared = p.shared ∧ p'.flights = p.flights ∧ unnamed p'.landed = [] := by
  have found := lookup_none p.landed
  rw [← unnamed, told] at found
  refine ⟨_, Prod.ext found rfl, rfl, rfl, ?_⟩
  simp [collect, unnamed]

theorem unnamed_place (p : Workplace Cluster Session Waiting) (key : Outcome.Key) (course : Course Session Waiting) :
    unnamed (p.place (some key) course).flights = unnamed p.flights ∧
      unnamed (p.place (some key) course).landed = unnamed p.landed := by
  cases course with
  | landed landing => simp [place, unnamed]
  | waiting wait task => simp [place, unnamed]

theorem unnamed_wake {key : Outcome.Key} {flight : Flight Session Waiting}
    {others : List (Worker.Name × Flight Session Waiting)}
    (found : earliest? p.flights = some ((some key, flight), others)) :
    unnamed (p.wake (some key) flight others).flights = unnamed p.flights ∧
      unnamed (p.wake (some key) flight others).landed = unnamed p.landed := by
  obtain ⟨front, back, split, rfl⟩ := split_earliest? found
  rw [wake_eq]
  obtain ⟨flights, landed⟩ := unnamed_place _ key _
  exact ⟨flights.trans (by simp [unnamed, split]), landed⟩

theorem advance_free (none : unnamed p.flights = []) (limit : Nat) : Passes p (p.advance limit) ∧
    unnamed (p.advance limit).flights = [] ∧ unnamed (p.advance limit).landed = unnamed p.landed := by
  fun_induction Timeline.advance p limit with
  | case1 p nobody => exact ⟨.done p, none, rfl⟩
  | case2 p name flight others found due ih =>
      cases name with
      | none =>
          obtain ⟨front, back, split, -⟩ := split_earliest? found
          rw [split] at none
          simp [unnamed] at none
      | some key =>
          obtain ⟨flights, landed⟩ := unnamed_wake found
          obtain ⟨passes, flights', landed'⟩ := ih (flights.trans none)
          exact ⟨.wakes found passes, flights', landed'.trans landed⟩
  | case3 p name flight others found early => exact ⟨.done p, none, rfl⟩

theorem advance_own {flight : Flight Session Waiting} {limit : Nat} (own : unnamed p.flights = [(none, flight)])
    (due : flight.wake ≤ limit) : ∃ q others, Passes p q ∧ earliest? q.flights = some ((none, flight), others) ∧
      unnamed q.landed = unnamed p.landed ∧ unnamed q.flights = [(none, flight)] ∧
        p.advance limit = (q.wake none flight others).advance limit := by
  have inside : (none, flight) ∈ p.flights :=
    List.mem_of_mem_filter (p := fun entry => entry.1.isNone) (own ▸ List.mem_singleton_self _ : _ ∈ unnamed p.flights)
  fun_induction Timeline.advance p limit with
  | case1 p nobody => exact absurd inside (eq_nil_of_earliest? nobody ▸ List.not_mem_nil)
  | case2 p name other others found due' ih =>
      cases name with
      | none =>
          have same : other = flight := by
            obtain ⟨front, back, split, -⟩ := split_earliest? found
            have member : (none, other) ∈ unnamed p.flights := by simp [unnamed, split]
            rw [own] at member
            exact (Prod.mk.inj (List.mem_singleton.mp member)).2
          subst same
          exact ⟨p, others, .done p, found, rfl, own, rfl⟩
      | some key =>
          obtain ⟨flights, landed⟩ := unnamed_wake found
          have own' := flights.trans own
          obtain ⟨q, others', passes, first, landed', own'', later⟩ := ih own' (List.mem_of_mem_filter
            (p := fun entry => entry.1.isNone) (own' ▸ List.mem_singleton_self _ : _ ∈ unnamed _))
          exact ⟨q, others', .wakes found passes, first, landed'.trans landed, own'', later⟩
  | case3 p name other others found early =>
      exact absurd (Nat.le_trans (le_earliest? found _ inside) due) early

theorem Quiet.free (quiet : p.Quiet) : p.Free := ⟨congrArg unnamed quiet.flights, congrArg unnamed quiet.landed⟩

theorem Free.pause (free : p.Free) (wait : Wait) : (p.pause wait).Free ∧ Passes p (p.pause wait) := by
  unfold Timeline.pause roll
  generalize p.dice.roll = rolled
  obtain ⟨random, dice⟩ := rolled
  obtain ⟨passes, flights, landed⟩ := advance_free (p := { p with dice }) free.flights
    (wakeTime { p with dice } (wait.draw random).1 random)
  have rolled : Passes p { p with dice } := .idle rfl rfl
  exact ⟨⟨flights, landed.trans free.landed⟩, (rolled.trans passes).trans (.idle rfl rfl)⟩

theorem Free.connect (free : p.Free) (node : Nat) : ∃ p', Free p' ∧ Passes p p' ∧
    p.connect node = (p', (Store.accept p'.shared.store node).2) := by
  unfold Timeline.connect
  cases latency : (Store.dial p.shared.store node).2 with
  | none =>
      simp only [latency]
      exact ⟨p, free, .done p, rfl⟩
  | some latency' =>
      obtain ⟨free', passes⟩ := free.pause (.roundTrip latency')
      simp only [latency]
      exact ⟨_, free', passes, rfl⟩

theorem wake_own {statement : Statement} {s s' : Session} {wake : Nat} {expired : Bool} {c : Cluster} {answer : Answer}
    {others : List (Worker.Name × Flight Session Waiting)}
    (found : earliest? p.flights = some ((none, ⟨wake, expired, .statement s (.reaching statement)⟩), others))
    (own : unnamed p.flights = [(none, ⟨wake, expired, .statement s (.reaching statement)⟩)])
    (left : unnamed p.landed = []) (executed : execute p.shared.store s statement = answered c s' answer) :
    ∃ q, p.wake none ⟨wake, expired, .statement s (.reaching statement)⟩ others = q ∧
      Passes { p with shared.store := c } q ∧ unnamed q.flights = [] ∧
        unnamed q.landed = [(none, .statement s' answer)] := by
  obtain ⟨front, back, split, rfl⟩ := split_earliest? found
  rw [wake_eq, resume_reaching executed]
  refine ⟨_, rfl, .idle rfl ?_, ?_, ?_⟩
  · change named (front ++ back) = named p.flights
    rw [split]
    simp [named]
  · rw [split] at own
    have length := congrArg List.length own
    simp only [unnamed, List.filter_append, List.filter_cons, Option.isNone_none, if_true, List.length_append,
      List.length_cons, List.length_nil] at length
    change unnamed (front ++ back) = []
    refine List.eq_nil_of_length_eq_zero ?_
    simp only [unnamed, List.filter_append, List.length_append]
    omega
  · change unnamed (p.landed ++ [(none, Landing.statement s' answer)]) = _
    rw [unnamed, List.filter_append, ← unnamed, left]
    rfl

theorem await_own {statement : Statement} (isOwn : statement.isOwn = true) {s : Session} {wake : Nat} {expired : Bool}
    (own : unnamed p.flights = [(none, ⟨wake, expired, .statement s (.reaching statement)⟩)])
    (left : unnamed p.landed = []) : ∃ q c s' answer, Passes p q ∧
      execute q.shared.store s statement = answered c s' answer ∧ Passes { q with shared.store := c } (p.await none) ∧
        unnamed (p.await none).flights = [] ∧ unnamed (p.await none).landed = [(none, .statement s' answer)] := by
  obtain ⟨q, others, passes, first, landed, own', advanced⟩ := advance_own own (Nat.le_refl wake)
  obtain ⟨c, s', answer, executed⟩ := execute_own isOwn q.shared.store s
  obtain ⟨w, woken, woke, gone, told⟩ := wake_own first own' (landed.trans left) executed
  rw [woken] at advanced
  obtain ⟨passes', ended, landed'⟩ := advance_free gone wake
  have waits : p.flight? none = some ⟨wake, expired, .statement s (.reaching statement)⟩ := by
    rw [flight?_none, own]
    rfl
  have absent : (p.advance wake).flight? none = none := by
    rw [flight?_none, advanced, ended]
    rfl
  rw [await_reaching waits absent, advanced]
  exact ⟨q, c, s', answer, passes, executed, woke.trans passes', ended, landed'.trans told⟩

theorem Free.launchStatement (free : p.Free) {statement : Statement} (own : statement.isOwn = true) {c : Cluster}
    {node : Nat} {s : Session} (accepted : (Store.accept c node).2 = .ok s) : ∃ q wake expired,
      p.launchStatement none statement s = q ∧ Passes p q ∧
        unnamed q.flights = [(none, ⟨wake, expired, .statement s (.reaching statement)⟩)] ∧
          unnamed q.landed = [] := by
  rw [launchStatement_own own accepted p]
  obtain ⟨dice, wake, expired, -, placed⟩ := p.place_waiting none (.roundTrip p.shared.store.settings.roundTrip)
    (.statement s (.reaching statement))
  rw [placed]
  refine ⟨_, wake, expired, rfl, .idle rfl ?_, ?_, free.landed⟩
  · simp [named]
  · rw [unnamed, List.filter_append, ← unnamed, free.flights]
    rfl

theorem Free.ask (free : p.Free) {statement : Statement} (own : statement.isOwn = true) {node : Nat} {answer : Answer}
    (asked : Client.ask p node statement = (p', answer)) : p'.Free ∧ ∀ reply, answer = .ok reply →
      ∃ q s c s', Passes p q ∧ s.node = node ∧ execute q.shared.store s statement = answered c s' (.ok reply) ∧
        Passes { q with shared.store := c } p' := by
  obtain ⟨p₁, free₁, passes₁, connected⟩ := free.connect node
  rw [Client.ask, connected] at asked
  cases accepted : (Store.accept p₁.shared.store node).2 with
  | error e =>
      rw [accepted] at asked
      cases asked
      exact ⟨free₁, fun reply isReply => by cases isReply⟩
  | ok s =>
      rw [accepted] at asked
      dsimp only at asked
      obtain ⟨p₂, wake, expired, launched, launches, own₂, left⟩ := free₁.launchStatement own accepted
      rw [launched] at asked
      obtain ⟨q, c, s', answer, passes, executed, passes', ended, told⟩ := await_own own own₂ left
      obtain ⟨p₃, collected, shared₃, flights₃, landed₃⟩ := collect_none told
      rw [collected] at asked
      cases asked
      refine ⟨⟨(congrArg unnamed flights₃).trans ended, landed₃⟩, fun reply isReply => ?_⟩
      subst isReply
      exact ⟨q, s, c, s', passes₁.trans (launches.trans passes), (Cluster.accept_ok accepted).1, executed,
        passes'.trans (.idle shared₃ (congrArg named flights₃))⟩

theorem Free.launch (free : p.Free) (loop : Workload.Loop Session) : Free (Worker.launch p loop) := by
  simp only [Worker.launch]
  split
  · exact ⟨free.flights, free.landed⟩
  · obtain ⟨flights, landed⟩ := unnamed_place _ loop.key _
    exact ⟨flights.trans free.flights, landed.trans free.landed⟩

theorem Free.setFlag (free : p.Free) (name : Worker.Name) (value : Bool) : (p.setFlag name value).Free := by
  refine ⟨?_, free.landed⟩
  have none := List.filter_eq_nil_iff.mp free.flights
  simp only [unnamed, Timeline.setFlag, List.filter_eq_nil_iff, List.forall_mem_map]
  intro flight member
  have named := none flight member
  split <;> exact named

theorem Free.wake {name : Worker.Name} {flight : Flight Session Waiting}
    {others : List (Worker.Name × Flight Session Waiting)} (free : p.Free)
    (found : p.flights.Perm ((name, flight) :: others)) (expired : Bool) :
    (p.wake name { flight with expired } others).Free := by
  have none := List.filter_eq_nil_iff.mp free.flights
  cases name with
  | none => exact absurd rfl (none (.none, flight) (found.mem_iff.mpr List.mem_cons_self))
  | some key =>
      rw [wake_eq]
      obtain ⟨flights, landed⟩ := unnamed_place _ key _
      refine ⟨flights.trans (List.filter_eq_nil_iff.mpr fun other member => ?_), landed.trans free.landed⟩
      exact none other (found.mem_iff.mpr (List.mem_cons_of_mem _ member))

theorem Passes.still (passes : Passes p q) (alone : named p.flights = []) :
    q.shared = p.shared ∧ named q.flights = [] := by
  induction passes with
  | done => exact ⟨rfl, alone⟩
  | idles shared flights _ ih =>
      obtain ⟨shared', flights'⟩ := ih (flights.trans alone)
      exact ⟨shared'.trans shared, flights'⟩
  | wakes found =>
      obtain ⟨front, back, split, -⟩ := split_earliest? found
      rw [split] at alone
      simp [named] at alone

theorem accountsOf_digest {c c' : Cluster} {node epoch other : Nat} {text : String}
    (answers : c.digest node epoch = .ok (c', text)) (apart : other ≠ node) :
    c'.accountsOf other = c.accountsOf other := by
  obtain ⟨-, refreshed⟩ := serve_eq_ok (digest_eq_ok answers).1
  rcases refresh_eq_ok refreshed with ⟨rfl, -⟩ | ⟨donor, -, -, rfl⟩
  · rfl
  · simp [accountsOf, getElem?_modify, apart.symm]

theorem Told.accountsOf {nodes : List Nat} {tables : List Accounts} (told : Told nodes p tables p')
    (alone : named p.flights = []) {node : Nat} (apart : node ∉ nodes) :
    p'.shared.store.accountsOf node = p.shared.store.accountsOf node := by
  induction told with
  | nil passes => rw [(passes.still alone).1]
  | cons passes answers _ ih =>
      obtain ⟨shared, alone'⟩ := passes.still alone
      rw [ih alone' (List.not_mem_of_not_mem_cons apart), ← shared]
      exact accountsOf_digest answers (List.ne_of_not_mem_cons apart)

theorem Told.tables {nodes : List Nat} {tables : List Accounts} (told : Told nodes p tables p')
    (alone : named p.flights = []) (once : nodes.Nodup) : tables = nodes.map p'.shared.store.accountsOf := by
  induction told with
  | nil => rfl
  | cons passes answers later ih =>
      obtain ⟨-, alone'⟩ := passes.still alone
      obtain ⟨apart, once'⟩ := List.nodup_cons.mp once
      rw [List.map_cons, later.accountsOf alone' apart, ← ih alone' once']

end Timeline

namespace Client
open Timeline Workload Cluster

variable {c c' : Client Cluster Session Waiting}

theorem Used.free {settings : Cluster.Settings} (used : Used settings c) : c.workplace.Free := by
  induction used with
  | start config fresh quiet => exact quiet.free
  | ask before own node ih => exact (ih.ask own rfl).1
  | tell before s statement ih => exact ⟨ih.flights, ih.landed⟩
  | @launch c before ih =>
      rw [launch_eq]
      split
      · exact ih
      · split
        · exact ih
        · next w p spawned =>
            obtain ⟨-, rfl⟩ := Worker.spawn_ok spawned rfl
            exact List.foldlRecOn _ Worker.launch ⟨rfl, rfl⟩ fun p free loop _ => free.launch loop
  | @collect c before ih =>
      unfold Client.collect withWorker
      cases c.worker with
      | none => exact ih
      | some w => exact ⟨ih.flights, ih.landed⟩
  | rest before length ih => exact (ih.pause _).1
  | stop before stopped gentle ih =>
      obtain ⟨w, w', -, -, ended⟩ := stop_ok stopped
      rcases Worker.stop_cases ended with ⟨-, same, -⟩ | ⟨-, same⟩
      · exact same ▸ ⟨rfl, rfl⟩
      · exact same ▸ ih
  | fault before fault ih => exact ⟨ih.flights, ih.landed⟩
  | wake before found expired ih => exact ih.wake found expired
  | reschedule before now grain dice ih => exact ⟨ih.flights, ih.landed⟩
  | lower before ih => exact List.foldlRecOn _ _ ih fun p free name _ => free.setFlag name false

theorem execute_digest_ok {d d' : Cluster} {s s' : Session} {reply : Reply}
    (executed : execute d s .digest = answered d' s' (.ok reply)) :
    ∃ text, reply = .digest text ∧ d.digest s.node s.epoch = .ok (d', text) := by
  simp only [execute] at executed
  cases told : d.digest s.node s.epoch with
  | error e =>
      rw [told] at executed
      cases executed
  | ok answer =>
      obtain ⟨d'', text⟩ := answer
      rw [told] at executed
      cases executed
      exact ⟨text, rfl, rfl⟩

theorem told_askAll {context : String} {nodes : List Nat} {replies : List Reply} (free : c.workplace.Free)
    (asked : askAll .digest context nodes c = (.ok replies, c')) :
    ∃ tables, Told nodes c.workplace tables c'.workplace ∧ replies = tables.map (Reply.digest ·.digest) := by
  induction nodes generalizing c replies with
  | nil =>
      cases asked
      exact ⟨[], .nil (.done _), rfl⟩
  | cons node rest ih =>
      generalize first : ask c.workplace node .digest = answered
      obtain ⟨p, answer⟩ := answered
      rw [askAll_cons first] at asked
      cases answer with
      | error e => cases asked
      | ok reply =>
          obtain ⟨free', replied⟩ := free.ask rfl first
          obtain ⟨q, s, d, s', passes, rfl, executed, passes'⟩ := replied reply rfl
          obtain ⟨text, rfl, answers⟩ := execute_digest_ok executed
          generalize others : askAll .digest context rest { c with workplace := p } = later at asked
          obtain ⟨result, last⟩ := later
          cases result with
          | error e => cases asked
          | ok replies' =>
              cases asked
              obtain ⟨tables, told, rfl⟩ := ih free' others
              refine ⟨_, .cons passes answers (told.after passes'), ?_⟩
              rw [(digest_eq_ok answers).2]
              rfl

theorem all_digests_iff {first : Accounts} {rest : List Accounts}
    (apart : ∀ a ∈ first :: rest, ∀ b ∈ first :: rest, ¬Sha256.Collide a.bytes b.bytes) :
    (rest.map (Reply.digest ·.digest)).all (· == .digest first.digest) = true ↔
      ∀ a ∈ first :: rest, ∀ b ∈ first :: rest, a = b := by
  have same (a : Accounts) (member : a ∈ rest) : Reply.digest a.digest = .digest first.digest ↔ a = first := by
    rw [Reply.digest.injEq]
    exact Accounts.digest_eq_iff (apart a (List.mem_cons_of_mem _ member) first List.mem_cons_self)
  rw [List.all_map, List.all_eq_true]
  constructor
  · intro all
    have equal : ∀ a ∈ first :: rest, a = first :=
      List.forall_mem_cons.mpr ⟨rfl, fun a member => (same a member).mp (eq_of_beq (all a member))⟩
    intro a member b member'
    rw [equal a member, equal b member']
  · intro equal a member
    exact beq_iff_eq.mpr ((same a member).mpr (equal a (List.mem_cons_of_mem _ member) first List.mem_cons_self))

/-- The text of a table tells the table. So unless the hash collides, two nodes tell the same digest exactly if their
tables are equal, and a client finds the same data everywhere exactly if all nodes answer from equal tables. While
nothing else is under way these are the tables that they hold in the end. -/
theorem digests_tell_tables :
    (∀ a b : Accounts, a.bytes = b.bytes ↔ a = b) ∧
    (∀ (d d' e e' : Cluster) (node epoch other epoch' : Nat) (text text' : String),
      d.digest node epoch = .ok (d', text) → e.digest other epoch' = .ok (e', text') →
        text = Sha256.hex (d'.accountsOf node).bytes ∧
        (¬Sha256.Collide (d'.accountsOf node).bytes (e'.accountsOf other).bytes →
          (text = text' ↔ d'.accountsOf node = e'.accountsOf other))) ∧
    (∀ (c c' : Client Cluster Session Waiting) (identical : Bool), c.workplace.Free →
      Client.isDataIdentical c = (.ok identical, c') →
        ∃ tables, Told (List.range c.nodeCount) c.workplace tables c'.workplace ∧
          ((∀ a ∈ tables, ∀ b ∈ tables, ¬Sha256.Collide a.bytes b.bytes) →
            (identical = true ↔ tables ≠ [] ∧ ∀ a ∈ tables, ∀ b ∈ tables, a = b)) ∧
          (c.workplace.Quiet → tables = (List.range c.nodeCount).map c'.store.accountsOf)) := by
  refine ⟨fun a b => Accounts.bytes_eq_iff, ?_, ?_⟩
  · intro d d' e e' node epoch other epoch' text text' told told'
    obtain ⟨-, rfl⟩ := digest_eq_ok told
    obtain ⟨-, rfl⟩ := digest_eq_ok told'
    exact ⟨rfl, Accounts.digest_eq_iff⟩
  · intro c c' identical free found
    rw [isDataIdentical_eq] at found
    generalize asked : askAll .digest "digest" (List.range c.nodeCount) c = answers at found
    obtain ⟨_ | replies, last⟩ := answers
    · cases found
    · obtain ⟨tables, told, rfl⟩ := told_askAll free asked
      have kept (quiet : c.workplace.Quiet) : tables = (List.range c.nodeCount).map last.store.accountsOf :=
        told.tables (congrArg named quiet.flights) List.nodup_range
      cases tables with
      | nil =>
          cases found
          exact ⟨[], told, fun _ => ⟨nofun, fun every => absurd rfl every.1⟩, kept⟩
      | cons first rest =>
          cases found
          refine ⟨first :: rest, told, fun apart => ?_, kept⟩
          rw [all_digests_iff apart]
          exact (and_iff_right (List.cons_ne_nil first rest)).symm

def diverged : Client Cluster Session Waiting :=
  { config := { accounts := 1 }
    workplace.shared.store :=
      { settings := { nodes := 2 }
        replicas := [{ accounts := .seed 1 }, { accounts := (Accounts.seed 1).write ⟨1, -5⟩ }] } }

theorem divergence_of_diverged :
    diverged.workplace.Quiet ∧ (Client.isDataIdentical diverged).1 = .ok false ∧
      (Accounts.seed 1).digest ≠ ((Accounts.seed 1).write ⟨1, -5⟩).digest ∧
        (Client.isDataIdentical diverged).2.store.accountsOf 0 ≠
          (Client.isDataIdentical diverged).2.store.accountsOf 1 := by
  have quiet : diverged.workplace.Quiet := ⟨rfl, rfl⟩
  have apart : ¬Sha256.Collide (Accounts.seed 1).bytes ((Accounts.seed 1).write ⟨1, -5⟩).bytes := by decide +kernel
  obtain ⟨-, tell, detect⟩ := digests_tell_tables
  have digests := (tell diverged.store diverged.store diverged.store diverged.store 0 0 1 0 _ _ rfl rfl).2 apart
  have differ : Accounts.seed 1 ≠ (Accounts.seed 1).write ⟨1, -5⟩ := by decide
  have held : (List.range diverged.nodeCount).map (Client.isDataIdentical diverged).2.store.accountsOf =
      [.seed 1, (Accounts.seed 1).write ⟨1, -5⟩] := by decide +kernel
  obtain ⟨identical, found⟩ : ∃ identical, (Client.isDataIdentical diverged).1 = .ok identical := by
    have answered : (Client.isDataIdentical diverged).1.toBool = true := by decide +kernel
    cases result : (Client.isDataIdentical diverged).1 with
    | error e =>
        rw [result] at answered
        cases answered
    | ok identical => exact ⟨identical, rfl⟩
  obtain ⟨tables, -, decides, kept⟩ := detect diverged _ identical quiet.free (Prod.ext found rfl)
  rw [kept quiet, held] at decides
  have pairwise : ∀ a ∈ [Accounts.seed 1, (Accounts.seed 1).write ⟨1, -5⟩],
      ∀ b ∈ [Accounts.seed 1, (Accounts.seed 1).write ⟨1, -5⟩], ¬Sha256.Collide a.bytes b.bytes := by
    simp only [List.forall_mem_cons, List.not_mem_nil, false_implies, implies_true, and_true]
    exact ⟨⟨Sha256.not_collide_self _, apart⟩, mt Sha256.Collide.symm apart, Sha256.not_collide_self _⟩
  have unequal : identical = false := Bool.eq_false_iff.mpr fun same =>
    differ (((decides pairwise).mp same).2 _ List.mem_cons_self _ (List.mem_cons_of_mem _ List.mem_cons_self))
  obtain ⟨first, second⟩ := List.cons.inj held
  exact ⟨quiet, unequal ▸ found, mt digests.mp differ,
    fun same => differ (first.symm.trans (same.trans (List.cons.inj second).1))⟩

end Client

end LedgerDrill
