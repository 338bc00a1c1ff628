import LedgerDrill.Proofs.Workload.Observed

namespace LedgerDrill

namespace Deed

def begins (id : Nat) : Deed → Bool
  | .sent i .begin .. => i = id
  | _ => false

def ends (id : Nat) : Deed → Bool
  | .sent i .commit .. | .sent i .rollback .. => i = id
  | _ => false

def session? : Deed → Option Nat
  | .sent id .. | .told id .. => some id
  | .dialled _ | .opened _ => none

end Deed

/-- Where a session is, by what is seen of it. -/
inductive Bracket
  | outside
  /-- A begin was sent. -/
  | asked
  | inside

namespace Bracket

def sent : Bracket → Statement → Option Bracket
  | outside, .begin => some asked
  | inside, .commit | inside, .rollback => some outside
  | asked, _ | inside, .begin | outside, .commit | outside, .rollback => none
  | bracket, _ => some bracket

def told : Bracket → Statement → Answer → Option Bracket
  | asked, .begin, .ok _ => some inside
  | asked, .begin, .error _ => some outside
  | asked, _, _ | _, .begin, _ => none
  | bracket, _, _ => some bracket

def next (id : Nat) (bracket : Bracket) : Deed → Option Bracket
  | .sent i statement .. => if i = id then bracket.sent statement else some bracket
  | .told i statement answer => if i = id then bracket.told statement answer else some bracket
  | .dialled _ | .opened _ => some bracket

def read (id : Nat) (bracket : Bracket) (deeds : List Deed) : Option Bracket := deeds.foldlM (next id) bracket

def debt : Bracket → Nat
  | inside => 1
  | outside | asked => 0

variable {id : Nat} {bracket bracket' : Bracket} {deed : Deed} {deeds more : List Deed}

theorem read_append : read id bracket (deeds ++ more) = (read id bracket deeds).bind (read id · more) :=
  List.foldlM_append

theorem read_cons : read id bracket (deed :: deeds) = (next id bracket deed).bind (read id · deeds) :=
  List.foldlM_cons

theorem next_other (other : deed.session? ≠ some id) : next id bracket deed = some bracket := by
  cases deed with
  | dialled | opened => rfl
  | sent i | told i => exact if_neg fun same => other (congrArg some same)

theorem next_debt (none : deed.begins id = false) (answered : bracket ≠ asked)
    (read : next id bracket deed = some bracket') :
    bracket' ≠ asked ∧ (if deed.ends id then 1 else 0) + bracket'.debt = bracket.debt := by
  have other (unseen : deed.session? ≠ some id) (silent : deed.ends id = false) :
      bracket' ≠ asked ∧ (if deed.ends id then 1 else 0) + bracket'.debt = bracket.debt := by
    obtain rfl : bracket = bracket' := Option.some.inj ((next_other unseen).symm.trans read)
    exact ⟨answered, by simp [silent]⟩
  cases deed with
  | dialled | opened => exact other nofun rfl
  | told i statement answer =>
      by_cases same : i = id
      · subst same
        rw [next, if_pos rfl] at read
        cases bracket with
        | asked => contradiction
        | outside | inside => cases statement <;> cases read <;> exact ⟨nofun, rfl⟩
      · exact other (fun h => same (Option.some.inj h)) rfl
  | sent i statement status closed =>
      by_cases same : i = id
      · subst same
        rw [next, if_pos rfl] at read
        cases bracket with
        | asked => contradiction
        | outside | inside =>
            cases statement with
            | begin => simp [Deed.begins] at none
            | add | total | create | digest | prepared => cases read; exact ⟨nofun, rfl⟩
            | commit | rollback => cases read <;> exact ⟨nofun, by simp [Deed.ends, debt]⟩
      · refine other (fun h => same (Option.some.inj h)) ?_
        cases statement <;> simp [Deed.ends, same]

theorem read_debt (none : ∀ deed ∈ deeds, deed.begins id = false) (answered : bracket ≠ asked)
    (accepted : read id bracket deeds = some bracket') :
    bracket' ≠ asked ∧ deeds.countP (Deed.ends id) + bracket'.debt = bracket.debt := by
  induction deeds generalizing bracket with
  | nil =>
      cases accepted
      exact ⟨answered, Nat.zero_add _⟩
  | cons deed deeds ih =>
      rw [read_cons] at accepted
      obtain ⟨between, first, rest⟩ := Option.bind_eq_some_iff.mp accepted
      obtain ⟨answered', paid⟩ := next_debt (none deed List.mem_cons_self) answered first
      obtain ⟨settled, later⟩ := ih (fun d member => none d (List.mem_cons_of_mem _ member)) answered' rest
      refine ⟨settled, ?_⟩
      rw [List.countP_cons]
      omega

theorem one_end {before between after : List Deed} {reply : Reply} {status : TxStatus} {closed : Bool}
    (accepted : (read id outside deeds).isSome)
    (split : deeds = before ++ .told id .begin (.ok reply) :: (between ++ .sent id .begin status closed :: after))
    (none : ∀ deed ∈ between, deed.begins id = false) : between.countP (Deed.ends id) = 1 := by
  obtain ⟨last, accepted⟩ := Option.isSome_iff_exists.mp accepted
  rw [split, read_append] at accepted
  obtain ⟨start, -, accepted⟩ := Option.bind_eq_some_iff.mp accepted
  rw [read_cons] at accepted
  obtain ⟨begun, first, accepted⟩ := Option.bind_eq_some_iff.mp accepted
  obtain rfl : begun = inside := by
    rw [next, if_pos rfl] at first
    cases start <;> cases first
    rfl
  rw [read_append] at accepted
  obtain ⟨settled, rest, accepted⟩ := Option.bind_eq_some_iff.mp accepted
  have answered : inside ≠ asked := nofun
  obtain ⟨-, paid⟩ := read_debt none answered rest
  rw [read_cons] at accepted
  obtain ⟨again, second, -⟩ := Option.bind_eq_some_iff.mp accepted
  obtain rfl : settled = outside := by
    rw [next, if_pos rfl] at second
    cases settled with
    | outside => rfl
    | asked | inside => cases second
  exact paid

end Bracket

/-! ## Sessions in use -/

/-- Nothing was refused on any session, and those that are not opened yet are outside a transaction. -/
structure Tidy (deeds : List Deed) (opened : Nat) : Prop where
  accepted : ∀ id, (Bracket.read id .outside deeds).isSome
  unused : ∀ id, opened ≤ id → Bracket.read id .outside deeds = some .outside

structure Reads (deeds : List Deed) (opened id : Nat) (bracket : Bracket) : Prop where
  tidy : Tidy deeds opened
  known : id < opened
  at_ : Bracket.read id .outside deeds = some bracket

variable {deeds : List Deed} {deed : Deed} {opened id : Nat} {bracket bracket' : Bracket}

theorem read_other (other : deed.session? ≠ some id) (from_ : Bracket) :
    Bracket.read id from_ (deeds ++ [deed]) = Bracket.read id from_ deeds := by
  have silent : (Bracket.read id · [deed]) = some := by
    funext bracket
    rw [Bracket.read_cons, Bracket.next_other other]
    rfl
  rw [Bracket.read_append, silent]
  exact Option.bind_fun_some _

theorem tidy_nil (opened : Nat) : Tidy [] opened := ⟨fun _ => rfl, fun _ _ => rfl⟩

theorem Tidy.append (tidy : Tidy deeds opened) (nowhere : deed.session? = none) : Tidy (deeds ++ [deed]) opened := by
  have same (id : Nat) : Bracket.read id .outside (deeds ++ [deed]) = Bracket.read id .outside deeds :=
    read_other (by simp [nowhere]) _
  exact ⟨fun id => same id ▸ tidy.accepted id, fun id later => (same id).trans (tidy.unused id later)⟩

theorem Tidy.opens (tidy : Tidy deeds opened) :
    Reads (deeds ++ [.opened opened]) (opened + 1) opened .outside := by
  obtain ⟨accepted, unused⟩ : Tidy (deeds ++ [.opened opened]) opened := tidy.append rfl
  exact ⟨⟨accepted, fun id later => unused id (Nat.le_of_succ_le later)⟩, Nat.lt_succ_self opened,
    unused opened (Nat.le_refl opened)⟩

theorem Reads.append (reads : Reads deeds opened id bracket) (own : deed.session? = some id)
    (next : bracket.next id deed = some bracket') : Reads (deeds ++ [deed]) opened id bracket' := by
  have here : Bracket.read id .outside (deeds ++ [deed]) = some bracket' := by
    rw [Bracket.read_append, reads.at_, Option.bind_some, Bracket.read_cons, next]
    rfl
  have elsewhere (i : Nat) (other : i ≠ id) :
      Bracket.read i .outside (deeds ++ [deed]) = Bracket.read i .outside deeds :=
    read_other (fun same => other (Option.some.inj (same.symm.trans own))) _
  refine ⟨⟨fun i => ?_, fun i later => ?_⟩, reads.known, here⟩
  · by_cases same : i = id
    · exact same ▸ here ▸ rfl
    · exact elsewhere i same ▸ reads.tidy.accepted i
  · have known := reads.known
    exact (elsewhere i (by omega)).trans (reads.tidy.unused i later)

end LedgerDrill
