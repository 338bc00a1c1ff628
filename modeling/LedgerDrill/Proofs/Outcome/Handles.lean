import LedgerDrill.Proofs.Outcome.Acts
import LedgerDrill.Proofs.Outcome.Operations

/-!
Aggregates that a registry shares with loops. Who registers a key gets a handle, and uses the aggregate behind
it without the registry. The registry by keys is what all handles show together: every key has one aggregate,
which nothing but the acts on this key changes.
-/

namespace LedgerDrill.Outcome
open Std

namespace Registry

variable (r : Registry) (key other : Key)

theorem get?_register :
    (r.register other).get? key = (r.get? key).or (if other = key then some {} else none) := by
  unfold register get?
  by_cases same : other = key
  · subst same
    rw [SortedMap.find?_alter_self]
    cases r.aggregates.find? other <;> simp
  · rw [SortedMap.find?_alter_ne _ same]
    simp [same]

theorem get?_update (f : Aggregate → Aggregate) :
    (r.update other f).get? key = (r.get? key).map fun a => if other = key then f a else a := by
  unfold update get?
  by_cases same : other = key
  · subst same
    simp [SortedMap.find?_modify_self]
  · rw [SortedMap.find?_modify_ne _ (Ne.symm same)]
    simp [same]

theorem get?_clear : r.clear.get? key = (r.get? key).map Aggregate.clear :=
  SortedMap.find?_mapWithKey _

theorem ext_get? {r r' : Registry} (same : ∀ key, r.get? key = r'.get? key) : r = r' := by
  cases r
  cases r'
  exact congrArg Registry.mk (SortedMap.ext_find? same)

end Registry

/-! ## Aggregates behind handles -/

structure Pool where
  handles : SortedMap Key Nat := ∅
  /-- The aggregates by their handles, each with the key that it was made for. -/
  cells : List (Key × Aggregate) := []

namespace Pool

/-- The handle of a key. Its first use makes the aggregate. -/
def register (p : Pool) (key : Key) : Nat × Pool :=
  match p.handles.find? key with
  | some handle => (handle, p)
  | none =>
    (p.cells.length,
      { handles := p.handles.insert key p.cells.length, cells := p.cells ++ [(key, {})] })

def use (p : Pool) (handle : Nat) (act : Act) : Pool :=
  { p with cells := p.cells.modify handle fun (key, a) => (key, (a.perform key.node key.kind act).2) }

def takeSnapshot (p : Pool) (now : Instant) : Snapshot × Pool :=
  (⟨p.handles.values.filterMap fun handle =>
      p.cells[handle]?.map fun (key, a) => (a.takeSnapshot key.node key.kind now).1⟩,
    p.handles.values.foldl (fun p handle => p.use handle (.takeSnapshot now)) p)

def get? (p : Pool) (key : Key) : Option Aggregate :=
  (p.handles.find? key).bind fun handle => p.cells[handle]?.map (·.2)

def registry (p : Pool) : Registry := ⟨p.handles.mapWithKey fun key _ => (p.get? key).getD {}⟩

inductive Move
  | register (key : Key)
  /-- An act through a handle. Nobody has a handle that was not given out. -/
  | use (handle : Nat) (act : Act)
  | takeSnapshot (now : Instant)
deriving DecidableEq

def step (p : Pool) : Move → Pool
  | .register key => (p.register key).2
  | .use handle act => p.use handle act
  | .takeSnapshot now => (p.takeSnapshot now).2

def play (p : Pool) (moves : List Move) : Pool := moves.foldl step p

def run (moves : List Move) : Pool := play {} moves

/-- What a move does to the aggregate of a key. -/
def Move.act? (p : Pool) (key : Key) : Move → Option Act
  | .register _ => none
  | .use handle act => if p.handles.find? key = some handle then some act else none
  | .takeSnapshot now => if p.handles.contains key then some (.takeSnapshot now) else none

def actsOn (key : Key) : Pool → List Move → List Act
  | _, [] => []
  | p, move :: moves => (move.act? p key).toList ++ actsOn key (p.step move) moves

def Move.onRegistry (p : Pool) (r : Registry) : Move → Registry
  | .register key => r.register key
  | .use handle act =>
    match p.cells[handle]? with
    | some (key, _) => r.update key fun a => (a.perform key.node key.kind act).2
    | none => r
  | .takeSnapshot now => (r.takeSnapshot now).2

/-! ## Handles and keys -/

def keyOf? (p : Pool) (handle : Nat) : Option Key := p.cells[handle]?.map (·.1)

/-- Every handle that was given out belongs to the key of the aggregate behind it. -/
def Sound (p : Pool) : Prop :=
  ∀ key handle, p.handles.find? key = some handle ↔ p.keyOf? handle = some key

variable {p : Pool} {key : Key}

theorem keyOf?_use (p : Pool) (handle : Nat) (act : Act) (other : Nat) :
    (p.use handle act).keyOf? other = p.keyOf? other := by
  simp only [keyOf?, use, List.getElem?_modify]
  cases p.cells[other]? with
  | none => rfl
  | some cell => by_cases same : handle = other <;> simp [same]

theorem keyOf?_append (p : Pool) (handles : SortedMap Key Nat) (key : Key) (handle : Nat) :
    (Pool.mk handles (p.cells ++ [(key, ({} : Aggregate))])).keyOf? handle =
      if handle = p.cells.length then some key else p.keyOf? handle := by
  simp only [keyOf?]
  split
  · next last => simp [last]
  · next notLast =>
      rcases Nat.lt_or_gt_of_ne notLast with before | behind
      · rw [List.getElem?_append_left before]
      · rw [List.getElem?_eq_none (by simp; omega), List.getElem?_eq_none (by omega)]

namespace Sound

theorem empty : Sound {} := fun _ _ => ⟨nofun, nofun⟩

theorem use (sound : p.Sound) (handle : Nat) (act : Act) : (p.use handle act).Sound := by
  intro key other
  rw [keyOf?_use]
  exact sound key other

theorem register (sound : p.Sound) (key : Key) : (p.register key).2.Sound := by
  unfold Pool.register
  cases found : p.handles.find? key with
  | some handle => exact sound
  | none =>
      have absent (handle : Nat) : p.keyOf? handle ≠ some key := by
        rw [ne_eq, ← sound, found]
        exact nofun
      intro other handle
      rw [keyOf?_append]
      by_cases same : key = other
      · subst same
        rw [SortedMap.insert, SortedMap.find?_alter_self]
        split
        · next last => simp [last]
        · next notLast => simp [absent handle, Ne.symm notLast]
      · rw [SortedMap.insert, SortedMap.find?_alter_ne _ same, sound]
        split
        · next last =>
            have unused : p.keyOf? handle = none := by simp [keyOf?, last]
            simp [unused, same]
        · rfl

theorem step (sound : p.Sound) (move : Move) : (p.step move).Sound := by
  cases move with
  | register key => exact sound.register key
  | use handle act => exact sound.use handle act
  | takeSnapshot now =>
      exact List.foldlRecOn (motive := Sound) p.handles.values _ sound fun _ sound handle _ => sound.use handle _

theorem play (sound : p.Sound) (moves : List Move) : (p.play moves).Sound :=
  List.foldlRecOn (motive := Sound) moves Pool.step sound fun _ sound move _ => sound.step move

theorem run (moves : List Move) : (run moves).Sound := empty.play moves

theorem cell (sound : p.Sound) {handle : Nat} (given : p.handles.find? key = some handle) :
    ∃ a, p.cells[handle]? = some (key, a) := by
  obtain ⟨⟨_, a⟩, found, rfl⟩ := Option.map_eq_some_iff.mp ((sound key handle).mp given)
  exact ⟨a, found⟩

theorem handle_injective (sound : p.Sound) {other : Key} {handle : Nat}
    (given : p.handles.find? key = some handle) (also : p.handles.find? other = some handle) : key = other :=
  Option.some.inj (((sound key handle).mp given).symm.trans ((sound other handle).mp also))

end Sound

theorem find?_register (p : Pool) (key : Key) :
    (p.register key).2.handles.find? key = some (p.register key).1 := by
  unfold Pool.register
  cases found : p.handles.find? key with
  | some handle => exact found
  | none => exact SortedMap.find?_alter_self _

theorem register_of_find? {handle : Nat} (given : p.handles.find? key = some handle) :
    p.register key = (handle, p) := by
  simp [Pool.register, given]

theorem handles_takeSnapshot (p : Pool) (now : Instant) : (p.takeSnapshot now).2.handles = p.handles :=
  List.foldlRecOn (motive := fun q : Pool => q.handles = p.handles) p.handles.values _ rfl
    fun _ same _ _ => same

theorem find?_step {handle : Nat} (given : p.handles.find? key = some handle) (move : Move) :
    (p.step move).handles.find? key = some handle := by
  cases move with
  | use => exact given
  | takeSnapshot now =>
      rw [step, handles_takeSnapshot]
      exact given
  | register other =>
      simp only [step, register]
      cases found : p.handles.find? other with
      | some _ => exact given
      | none =>
          have different : other ≠ key := fun same => by simp [same, given] at found
          exact (SortedMap.find?_alter_ne _ different).trans given

theorem find?_play {handle : Nat} (given : p.handles.find? key = some handle) (moves : List Move) :
    (p.play moves).handles.find? key = some handle :=
  List.foldlRecOn (motive := fun q : Pool => q.handles.find? key = some handle) moves step given
    fun _ given move _ => find?_step given move

/-! ## The aggregate of one key -/

theorem get?_of_cell {handle : Nat} {a : Aggregate} (given : p.handles.find? key = some handle)
    (cell : p.cells[handle]? = some (key, a)) : p.get? key = some a := by
  simp [get?, given, cell]

theorem get?_of_find?_eq_none (absent : p.handles.find? key = none) : p.get? key = none := by
  simp [get?, absent]

theorem get?_use (sound : p.Sound) (handle : Nat) (act : Act) :
    (p.use handle act).get? key = (p.get? key).map fun a =>
      if p.handles.find? key = some handle then (a.perform key.node key.kind act).2 else a := by
  cases given : p.handles.find? key with
  | none =>
      rw [get?_of_find?_eq_none given]
      exact get?_of_find?_eq_none given
  | some own =>
      obtain ⟨a, cell⟩ := sound.cell given
      have changed : (p.use handle act).cells[own]? =
          some (key, if own = handle then (a.perform key.node key.kind act).2 else a) := by
        rw [use, List.getElem?_modify, cell]
        by_cases same : handle = own
        · simp [same]
        · simp [same, Ne.symm same]
      rw [get?_of_cell given cell, get?_of_cell (p := p.use handle act) given changed]
      simp

theorem get?_clears (sound : p.Sound) (now : Instant) (handles : List Nat) :
    (handles.foldl (fun p handle => p.use handle (.takeSnapshot now)) p).get? key =
      (p.get? key).map fun a => if ∃ handle ∈ handles, p.handles.find? key = some handle then a.clear else a := by
  induction handles generalizing p with
  | nil => simp
  | cons handle rest ih =>
      have given : (p.use handle (.takeSnapshot now)).handles = p.handles := rfl
      rw [List.foldl_cons, ih (sound.use handle _), get?_use sound, Option.map_map, given]
      congr 1
      funext a
      by_cases own : p.handles.find? key = some handle
      · simp [own, Aggregate.perform, Aggregate.takeSnapshot_eq, Aggregate.clear]
      · simp [own]

theorem get?_takeSnapshot (sound : p.Sound) (now : Instant) :
    (p.takeSnapshot now).2.get? key = (p.get? key).map Aggregate.clear := by
  have cleared : (p.takeSnapshot now).2.get? key = _ := get?_clears sound now p.handles.values
  rw [cleared]
  cases given : p.handles.find? key with
  | none => rw [get?_of_find?_eq_none given]; rfl
  | some handle =>
      have listed : handle ∈ p.handles.values :=
        List.mem_map_of_mem (f := (·.2)) (SortedMap.find?_eq_some_iff.mp given)
      simp [listed]

theorem get?_register (sound : p.Sound) (other : Key) :
    (p.register other).2.get? key = (p.get? key).or (if other = key then some {} else none) := by
  unfold Pool.register
  cases found : p.handles.find? other with
  | some handle =>
      obtain ⟨a, cell⟩ := sound.cell found
      by_cases same : other = key
      · subst same
        simp [get?_of_cell found cell]
      · simp [same]
  | none =>
      by_cases same : other = key
      · subst same
        rw [get?_of_find?_eq_none found, if_pos rfl]
        exact get?_of_cell (SortedMap.find?_alter_self _) (by simp)
      · have kept : (p.handles.insert other p.cells.length).find? key = p.handles.find? key :=
          SortedMap.find?_alter_ne _ same
        rw [if_neg same, Option.or_none]
        cases given : p.handles.find? key with
        | none =>
            rw [get?_of_find?_eq_none given]
            exact get?_of_find?_eq_none (kept.trans given)
        | some handle =>
            obtain ⟨a, cell⟩ := sound.cell given
            rw [get?_of_cell given cell]
            refine get?_of_cell (kept.trans given) ?_
            rw [List.getElem?_append_left (List.getElem?_eq_some_iff.mp cell).1]
            exact cell

theorem get?_step (sound : p.Sound) (move : Move) :
    (p.step move).get? key =
      ((p.get? key).map fun a => (move.act? p key).elim a fun act => (a.perform key.node key.kind act).2).or
        (if move = .register key then some {} else none) := by
  cases move with
  | register other =>
      rw [step, get?_register sound]
      simp [Move.act?]
  | use handle act =>
      rw [step, get?_use sound]
      by_cases own : p.handles.find? key = some handle <;> simp [Move.act?, own]
  | takeSnapshot now =>
      rw [step, get?_takeSnapshot sound]
      cases given : p.handles.find? key with
      | none => simp [get?_of_find?_eq_none given]
      | some handle =>
          have contained : p.handles.contains key = true := by
            rw [← SortedMap.isSome_find?, given]
            rfl
          simp [Move.act?, contained]
          rfl

theorem act?_of_unregistered (absent : p.handles.find? key = none) (move : Move) : move.act? p key = none := by
  cases move with
  | register other => rfl
  | use handle act => simp [Move.act?, absent]
  | takeSnapshot now =>
      have missing : p.handles.contains key = false := by
        rw [← SortedMap.isSome_find?, absent]
        rfl
      simp [Move.act?, missing]

theorem get?_eq_none_iff (sound : p.Sound) : p.get? key = none ↔ p.handles.find? key = none := by
  constructor
  · intro absent
    by_contra registered
    obtain ⟨handle, given⟩ := Option.ne_none_iff_exists'.mp registered
    obtain ⟨a, cell⟩ := sound.cell given
    simp [get?_of_cell given cell] at absent
  · exact get?_of_find?_eq_none

theorem get?_play (sound : p.Sound) (moves : List Move) :
    (p.play moves).get? key =
      ((p.get? key).or (if .register key ∈ moves then some {} else none)).map fun a =>
        (actsOn key p moves).foldl (fun a act => (a.perform key.node key.kind act).2) a := by
  induction moves generalizing p with
  | nil => simp [play, actsOn]
  | cons move moves ih =>
      have played : (p.play (move :: moves)) = (p.step move).play moves := rfl
      rw [played, ih (sound.step move), get?_step sound]
      simp only [actsOn, List.foldl_append]
      cases present : p.get? key with
      | none =>
          have nothing := act?_of_unregistered ((get?_eq_none_iff sound).mp present) move
          by_cases here : move = .register key
          · simp [here, Move.act?]
          · simp [nothing, here, Ne.symm here]
      | some a =>
          cases move.act? p key <;> simp

theorem get?_run (moves : List Move) :
    (run moves).get? key =
      if .register key ∈ moves then some (Aggregate.after key.node key.kind (actsOn key {} moves)) else none := by
  have unregistered : ({} : Pool).get? key = none := rfl
  rw [run, get?_play .empty, unregistered, Option.none_or]
  split <;> rfl

/-! ## The registry that the handles make up -/

theorem get?_registry (sound : p.Sound) : p.registry.get? key = p.get? key := by
  rw [registry, Registry.get?, SortedMap.find?_mapWithKey]
  cases given : p.handles.find? key with
  | none => rw [get?_of_find?_eq_none given]; rfl
  | some handle =>
      obtain ⟨a, cell⟩ := sound.cell given
      rw [get?_of_cell given cell]
      rfl

/-- Through handles as by keys: every move does to the registry what it does to the aggregate of its key. -/
theorem registry_step (sound : p.Sound) (move : Move) : (p.step move).registry = move.onRegistry p p.registry := by
  refine Registry.ext_get? fun key => ?_
  rw [get?_registry (sound.step move)]
  cases move with
  | register other => rw [step, get?_register sound, Move.onRegistry, Registry.get?_register, get?_registry sound]
  | takeSnapshot now =>
      rw [step, get?_takeSnapshot sound, Move.onRegistry, Registry.takeSnapshot, Registry.get?_clear,
        get?_registry sound]
  | use handle act =>
      rw [step, get?_use sound]
      simp only [sound key handle, keyOf?, Move.onRegistry]
      cases p.cells[handle]? with
      | none => simp [get?_registry sound]
      | some made =>
          simp only [Option.map_some, Option.some.injEq, Registry.get?_update, get?_registry sound]
          congr 1
          funext a
          by_cases same : made.1 = key <;> simp [same]

theorem snapshot_eq (sound : p.Sound) (now : Instant) : (p.takeSnapshot now).1 = p.registry.peek now := by
  simp only [takeSnapshot, Registry.peek, registry, SortedMap.values, SortedMap.mapWithKey, List.filterMap_map,
    List.map_map]
  congr 1
  rw [← List.filterMap_eq_map]
  refine List.filterMap_congr ?_
  rintro ⟨key, handle⟩ member
  obtain ⟨a, cell⟩ := sound.cell (SortedMap.find?_eq_some_iff.mpr member)
  simp [cell, get?_of_cell (SortedMap.find?_eq_some_iff.mpr member) cell, Aggregate.takeSnapshot_eq]

end Pool

/-! ## Snapshots of a registry -/

theorem Key.compare_eq_lt {a b : Key} :
    compare a b = .lt ↔ a.node < b.node ∨ a.node = b.node ∧ a.kind = .transfer ∧ b.kind = .sumTotal := by
  obtain ⟨node, kind⟩ := a
  obtain ⟨node', kind'⟩ := b
  have kinds : compare kind kind' = .lt ↔ kind = .transfer ∧ kind' = .sumTotal := by
    cases kind <;> cases kind' <;> decide
  exact Ordering.then_eq_lt.trans (or_congr Nat.compare_eq_lt (and_congr Nat.compare_eq_eq kinds))

def Entry.key (e : Entry) : Key := ⟨e.node, e.kind⟩

namespace Snapshot

theorem pairwise_nodes (s : Snapshot) : s.nodes.Pairwise (· < ·) :=
  SortedMap.pairwise_keys.imp Nat.compare_eq_lt.mp

theorem mem_nodes {s : Snapshot} {node : Nat} : node ∈ s.nodes ↔ ∃ e ∈ s.entries, e.node = node := by
  rw [nodes, SortedMap.mem_keys, SortedMap.contains_ofList]
  simp

end Snapshot

namespace Registry

theorem keys_peek (r : Registry) (now : Instant) : (r.peek now).entries.map Entry.key = r.aggregates.keys := by
  simp [peek, SortedMap.keys, Function.comp_def, Entry.key, Aggregate.peek]

theorem pairwise_peek (r : Registry) (now : Instant) :
    (r.peek now).entries.Pairwise fun a b => compare a.key b.key = .lt := by
  have keys : ((r.peek now).entries.map Entry.key).Pairwise fun a b => compare a b = .lt :=
    keys_peek r now ▸ SortedMap.pairwise_keys
  exact List.pairwise_map.mp keys

theorem count_peek (r : Registry) (now : Instant) (key : Key) :
    ((r.peek now).entries.map Entry.key).count key = if (r.get? key).isSome then 1 else 0 := by
  have nodup : r.aggregates.keys.Nodup :=
    SortedMap.pairwise_keys.imp fun less same => by simp [same, Std.compare_self] at less
  simp only [keys_peek, nodup.count, SortedMap.mem_keys, get?, SortedMap.isSome_find?]

end Registry

namespace Pool

/-- What a snapshot shows at an instant, after some moves. -/
structure Shows (s : Snapshot) (moves : List Move) (now : Instant) : Prop where
  ordered : s.entries.Pairwise fun a b =>
    a.node < b.node ∨ a.node = b.node ∧ a.kind = .transfer ∧ b.kind = .sumTotal
  listed : ∀ key, (s.entries.map Entry.key).count key = if .register key ∈ moves then 1 else 0
  /-- An entry is that of an aggregate of its own, with which was done only what was done with this key. -/
  own : ∀ node kind, s.get? node kind =
    if .register ⟨node, kind⟩ ∈ moves then
      some ((Aggregate.after node kind (actsOn ⟨node, kind⟩ {} moves)).peek node kind now)
    else none
  /-- What was done before the previous snapshot matters for the iteration in flight only. -/
  window : ∀ node kind earlier previous since, moves = earlier ++ .takeSnapshot previous :: since →
    .register ⟨node, kind⟩ ∈ moves →
      let all := (Aggregate.after node kind (actsOn ⟨node, kind⟩ {} moves)).peek node kind now
      let acts := actsOn ⟨node, kind⟩ (run (earlier ++ [.takeSnapshot previous])) since
      let fresh := (Aggregate.after node kind acts).peek node kind now
      s.get? node kind = some { fresh with running := all.running }
  nodes : s.nodes.Pairwise (· < ·) ∧ ∀ node, node ∈ s.nodes ↔ ∃ kind, .register ⟨node, kind⟩ ∈ moves

theorem register_mem_iff (moves : List Move) (key : Key) :
    .register key ∈ moves ↔ ((run moves).get? key).isSome = true := by
  rw [get?_run]
  split <;> simp [*]

theorem get?_takeSnapshot_run (moves : List Move) (now : Instant) (node : Nat) (kind : LoopKind) :
    ((run moves).takeSnapshot now).1.get? node kind =
      if .register ⟨node, kind⟩ ∈ moves then
        some ((Aggregate.after node kind (actsOn ⟨node, kind⟩ {} moves)).peek node kind now)
      else none := by
  have found := Registry.get?_peek (run moves).registry ⟨node, kind⟩ now
  rw [get?_registry (.run moves), get?_run] at found
  rw [snapshot_eq (.run moves), found]
  split <;> rfl

/-! ## Windows of a shared aggregate -/

theorem actsOn_append (key : Key) (p : Pool) (moves more : List Move) :
    actsOn key p (moves ++ more) = actsOn key p moves ++ actsOn key (p.play moves) more := by
  induction moves generalizing p with
  | nil => rfl
  | cons move moves ih =>
      rw [List.cons_append, actsOn, actsOn, ih, List.append_assoc]
      rfl

theorem actsOn_of_unregistered {moves : List Move} (absent : (p.play moves).handles.find? key = none) :
    actsOn key p moves = [] := by
  induction moves generalizing p with
  | nil => rfl
  | cons move moves ih =>
      have before : p.handles.find? key = none := by
        cases given : p.handles.find? key with
        | none => rfl
        | some handle => exact ((find?_play given (move :: moves)).symm.trans absent)
      rw [actsOn, act?_of_unregistered before, ih absent]
      rfl

theorem after_snapshot (key : Key) (moves : List Move) (now : Instant) :
    ∃ since, Aggregate.after key.node key.kind (actsOn key {} (moves ++ [.takeSnapshot now])) = { since } := by
  rw [actsOn_append]
  cases given : (run moves).handles.find? key with
  | none =>
      have before : actsOn key {} moves = [] := actsOn_of_unregistered given
      have nothing : actsOn key (play {} moves) [.takeSnapshot now] = [] :=
        (List.append_nil _).trans (congrArg Option.toList (act?_of_unregistered given _))
      rw [before, nothing]
      exact ⟨none, rfl⟩
  | some handle =>
      have contained : (run moves).handles.contains key = true := by
        rw [← SortedMap.isSome_find?, given]
        rfl
      have cleared : actsOn key (play {} moves) [.takeSnapshot now] = [.takeSnapshot now] := by
        have on : Move.act? (play {} moves) key (.takeSnapshot now) = some (.takeSnapshot now) := if_pos contained
        rw [actsOn, on]
        rfl
      rw [cleared, Aggregate.after_append]
      exact ⟨_, rfl⟩

end Pool

theorem Aggregate.foldl_perform_since (node : Nat) (kind : LoopKind) (acts : List Act) {a b : Aggregate}
    (same : { a with since := none } = { b with since := none }) :
    let final (a : Aggregate) := acts.foldl (fun a act => (a.perform node kind act).2) a
    { final a with since := none } = { final b with since := none } := by
  induction acts generalizing a b with
  | nil => exact same
  | cons act acts ih =>
      refine ih ?_
      obtain ⟨longest, outcomes, violations, since⟩ := a
      obtain ⟨longest', outcomes', violations', since'⟩ := b
      simp only [Aggregate.mk.injEq] at same
      obtain ⟨rfl, rfl, rfl, -⟩ := same
      cases act <;> rfl

namespace Pool

theorem entry_of_window {moves earlier since : List Move} {previous : Instant}
    (split : moves = earlier ++ .takeSnapshot previous :: since) (key : Key) (now : Instant) :
    let all := (Aggregate.after key.node key.kind (actsOn key {} moves)).peek key.node key.kind now
    let acts := actsOn key (run (earlier ++ [.takeSnapshot previous])) since
    let fresh := (Aggregate.after key.node key.kind acts).peek key.node key.kind now
    all = { fresh with running := all.running } := by
  intro all acts fresh
  have whole : actsOn key {} moves = actsOn key {} (earlier ++ [.takeSnapshot previous]) ++ acts := by
    rw [split, List.append_cons, actsOn_append]
    rfl
  obtain ⟨mark, begun⟩ := after_snapshot key earlier previous
  have same := Aggregate.foldl_perform_since key.node key.kind acts
    (a := { since := mark }) (b := {}) rfl
  have final : Aggregate.after key.node key.kind (actsOn key {} moves) =
      acts.foldl (fun a act => (a.perform key.node key.kind act).2) { since := mark } := by
    rw [whole, Aggregate.after, List.foldl_append, ← begun]
    rfl
  simp only [Aggregate.mk.injEq, and_true] at same
  obtain ⟨longest, outcomes, violations⟩ := same
  simp only [all, fresh, Aggregate.peek, final, longest, outcomes, violations]
  rfl

/-! ## The theorem -/

theorem count_keys (moves : List Move) (now : Instant) (key : Key) :
    (((run moves).takeSnapshot now).1.entries.map Entry.key).count key =
      if .register key ∈ moves then 1 else 0 := by
  simp only [snapshot_eq (.run moves), Registry.count_peek, get?_registry (.run moves), register_mem_iff]

theorem shows (moves : List Move) (now : Instant) : Shows ((run moves).takeSnapshot now).1 moves now where
  ordered := by
    rw [snapshot_eq (.run moves)]
    exact (Registry.pairwise_peek _ now).imp Key.compare_eq_lt.mp
  listed := count_keys moves now
  own := get?_takeSnapshot_run moves now
  window node kind earlier previous since split registered := by
    intro all acts fresh
    rw [get?_takeSnapshot_run, if_pos registered]
    exact congrArg some (entry_of_window split ⟨node, kind⟩ now)
  nodes := by
    refine ⟨Snapshot.pairwise_nodes _, fun node => Snapshot.mem_nodes.trans ?_⟩
    have present (key : Key) : key ∈ ((run moves).takeSnapshot now).1.entries.map Entry.key ↔
        .register key ∈ moves := by
      rw [← List.count_pos_iff, count_keys]
      split <;> simp [*]
    constructor
    · rintro ⟨e, member, rfl⟩
      exact ⟨e.kind, (present e.key).mp (List.mem_map_of_mem member)⟩
    · rintro ⟨kind, registered⟩
      obtain ⟨e, member, same⟩ := List.mem_map.mp ((present ⟨node, kind⟩).mpr registered)
      exact ⟨e, member, congrArg Key.node same⟩

/-- However keys are registered, their aggregates are used and snapshots are taken. -/
theorem entries_are_their_own (moves : List Move) (now : Instant) :
    let p := run moves
    Shows (p.takeSnapshot now).1 moves now ∧
    (∀ key later, (((p.register key).2.play later).register key).1 = (p.register key).1) ∧
    (∀ key other later, key ≠ other → (((p.register key).2.play later).register other).1 ≠ (p.register key).1) ∧
    (∀ key handle act, p.handles.find? key ≠ some handle → (p.use handle act).get? key = p.get? key) ∧
    (p.takeSnapshot now).1 = p.registry.peek now ∧
    ∀ move, (p.step move).registry = move.onRegistry p p.registry := by
  intro p
  have sound : p.Sound := .run moves
  refine ⟨shows moves now, ?_, ?_, ?_, snapshot_eq sound now, registry_step sound⟩
  · intro key later
    rw [register_of_find? (find?_play (find?_register p key) later)]
  · intro key other later different same
    have played : ((p.register key).2.play later).Sound := (sound.register key).play later
    have given := find?_step (find?_play (find?_register p key) later) (.register other)
    have also := find?_register ((p.register key).2.play later) other
    exact different ((played.register other).handle_injective given (same ▸ also))
  · intro key handle act other
    rw [get?_use sound]
    simp [other]

/-- An iteration that was begun before a snapshot is in flight after it, though nothing was done since. -/
theorem in_flight_after_snapshot :
    ¬ ∀ node kind earlier previous since now, .register ⟨node, kind⟩ ∈ earlier →
      let acts := actsOn ⟨node, kind⟩ (run (earlier ++ [.takeSnapshot previous])) since
      ((run (earlier ++ .takeSnapshot previous :: since)).takeSnapshot now).1.get? node kind =
        some ((Aggregate.after node kind acts).peek node kind now) := by
  intro windows
  have shown := windows 0 .transfer [.register ⟨0, .transfer⟩, .use 0 (.start 5)] 7 [] 9 (by decide)
  revert shown
  decide

end Pool

end LedgerDrill.Outcome
