import Workflow.Proofs.Review.Attendance
import Workflow.Proofs.Run.Course

/-!
# Steps that keep apart

Of the steps of one execution that are in progress at one time no two have one name. `Motion.Sound`
is the invariant of such a tree of steps: its members share out the names, and the box of every step
that asks is live. A move of one of them keeps it, whoever else holds a seat at the desk, provided
that nobody else has a key of the execution under one of the names.
-/
namespace Workflow

/-- A request of an execution is replaced, or one of its steps ends by being aborted. -/
def Move.Spoils (execution : String) : Move → Prop
  | .sits seat => seat.key.execution = execution ∧ seat.replaced ≠ none
  | .leaves seat outcome =>
    seat.key.execution = execution ∧ ∃ name, outcome = .error (.humanAborted name)
  | _ => False

/-- A seat has a key that no step of an execution with certain names has. -/
def Seat.Foreign (execution : String) (names : List String) (seat : Seat) : Prop :=
  seat.key.execution ≠ execution ∨ seat.key.step ∉ names

/-- A seat has the key of a step of an execution with one of certain names. -/
def Seat.Own (execution : String) (names : List String) (seat : Seat) : Prop :=
  seat.key.execution = execution ∧ seat.key.step ∈ names

/-- A foreign seat has another key than an own one. -/
theorem Seat.Foreign.key_ne {execution : String} {names : List String} {foreign own : Seat}
    (other : foreign.Foreign execution names) (ours : own.Own execution names) :
    foreign.key ≠ own.key := by
  intro same
  rcases other with otherExecution | otherName
  · exact otherExecution (same ▸ ours.1)
  · exact otherName (same ▸ ours.2)

namespace Motion

/-- The steps of an execution that are in progress keep apart under certain names, and those that
ask humans are attended to. -/
inductive Sound (execution : String) (desk : Desk) : List String → Motion → Prop where
  /-- A process is about to go on. -/
  | going {names : List String} {process : Process} (asks : process.AsksApart execution names) :
      Sound execution desk names (.going process)
  | calling {names : List String} (call : Call) {next : CallEnd → Process}
      (later : ∀ callEnd, (next callEnd).AsksApart execution names) :
      Sound execution desk names (.alone (.calling call next))
  | ended (names : List String) (outcome : Outcome) :
      Sound execution desk names (.ended outcome)
  /-- It asks a human. -/
  | seated {names : List String} {context : Context} {step : Workflow.Step} {input : Value}
      {seat : Seat} {stage : Stage} (own : seat.Own execution names)
      (attended : stage.Attended context step input seat desk) :
      Sound execution desk names (.seated seat stage)
  /-- Its members share out the names. -/
  | together {names : List String} {members : List Motion} {next : List Outcome → Process}
      (shares : List (List String × Motion)) (same : shares.map Prod.snd = members)
      (sound : ∀ share ∈ shares, share.2.Sound execution desk share.1)
      (apart : shares.Pairwise fun first second => first.1.Disjoint second.1)
      (within : ∀ share ∈ shares, share.1 ⊆ names)
      (later : ∀ outcomes, (next outcomes).AsksApart execution names) :
      Sound execution desk names (.together members next)

variable {execution : String} {desk desk' : Desk} {names : List String} {motion : Motion}

/-- All seats have keys of the execution under the names. -/
theorem Sound.own (sound : motion.Sound execution desk names) :
    ∀ seat ∈ motion.seats, seat.Own execution names := by
  induction sound with
  | going | calling | ended => simp [seats]
  | seated own => simpa [seats] using own
  | together shares same _ _ within _ ih =>
    intro seat held
    obtain ⟨member, inside, held⟩ := mem_seatsOf.mp (by simpa only [seats] using held)
    rw [← same] at inside
    obtain ⟨share, shared, rfl⟩ := List.mem_map.mp inside
    have own := ih share shared seat held
    exact ⟨own.1, within share shared own.2⟩

/-- What keeps the boxes of all seats live keeps the steps attended to. -/
theorem Sound.frame (sound : motion.Sound execution desk names)
    (kept : ∀ seat ∈ motion.seats, desk.Live seat.ticket → desk'.Live seat.ticket) :
    motion.Sound execution desk' names := by
  induction sound with
  | going asks => exact .going asks
  | calling call later => exact .calling call later
  | ended names outcome => exact .ended names outcome
  | seated own attended => exact .seated own (attended.frame (kept _ (by simp [seats])))
  | together shares same _ apart within later ih =>
    refine .together shares same (fun share shared => ih share shared fun seat held => ?_) apart
      within later
    have inside := List.mem_map_of_mem (f := Prod.snd) shared
    rw [same] at inside
    exact kept seat (mem_seatsOf.mpr ⟨share.2, inside, held⟩)

/-- A process that asks a human asks under the names that it keeps to. -/
theorem own_of_asksApart {context : Context} {step : Workflow.Step} {input : Value}
    (asks : (askHuman context step input).AsksApart execution names) :
    context.execution = execution ∧ step.name ∈ names := by
  generalize same : askHuman context step input = process at asks
  cases asks with
  | settle | warn | lookUp | call | together => cases same
  | @ask _ other asked input' own named =>
    injection same with request
    have sameExecution : context.execution = other.execution := congrArg Request.execution request
    have sameName : step.name = asked.name := congrArg Request.step request
    exact ⟨sameExecution.trans own, sameName ▸ named⟩

/-- What a move of the steps in progress keeps, where others hold seats at the desk. -/
structure Kept (execution : String) (names : List String) (others : List Seat)
    (hands : List Ticket) (before : Desk) (move : Move) (after : Environment × Motion) : Prop where
  /-- They keep apart and are attended to. -/
  sound : after.2.Sound execution after.1.desk names
  /-- The desk stays orderly. -/
  orderly : after.1.desk.Orderly (after.2.seats ++ others) hands
  /-- The boxes of the others stay live. -/
  live : ∀ seat ∈ others, before.Live seat.ticket → after.1.desk.Live seat.ticket
  /-- Nobody replaces a request of the execution or aborts one of its steps. -/
  harmless : ¬move.Spoils execution

variable {others : List Seat} {hands : List Ticket}

/-- A move that does not concern the desk, and changes no seat. -/
theorem Kept.quiet {before : Desk} {after : Environment × Motion} (same : after.1.desk = before)
    (sound : after.2.Sound execution before names)
    (orderly : before.Orderly (after.2.seats ++ others) hands) :
    Kept execution names others hands before .elsewhere after where
  sound := by rwa [same]
  orderly := by rwa [same]
  live seat held live := by rwa [same]
  harmless := fun spoils => spoils

/-- A step that holds no seat keeps apart when it goes on. -/
theorem Sound.alone {seat : Seat} {environment environment' : Environment} {stage stage' : Stage}
    {deed : Deed} (sound : (Motion.alone stage).Sound execution desk names)
    (step : Stage.Step seat environment stage deed environment' stage') :
    (Motion.alone stage').Sound execution desk' names := by
  cases sound with
  | going asks =>
    cases asks with
    | settle =>
      cases step
      exact .ended names _
    | warn warning later =>
      cases step
      exact .going later
    | lookUp action later =>
      cases step
      exact .going (later _)
    | call registration input limit later =>
      cases step
      exact .calling _ later
    | ask | together => cases step
  | calling call later =>
    cases step
    exact .going (later _)
  | ended => cases step

/-- A step gets a seat with a key of its own: its request replaces none. -/
theorem kept_sits {environment : Environment} (context : Context) (step : Workflow.Step)
    (input : Value) (own : context.execution = execution) (named : step.name ∈ names)
    (orderly : environment.desk.Orderly others hands)
    (foreign : ∀ seat ∈ others, seat.Foreign execution names) :
    Kept execution names others hands environment.desk
      (.sits (environment.makeRequest (requestOf context step input)).1)
      ((environment.makeRequest (requestOf context step input)).2,
        .seated (environment.makeRequest (requestOf context step input)).1
          (.announcing (requestOf context step input) (onceSeated context step input
            (environment.makeRequest (requestOf context step input)).1))) := by
  have ours : (environment.makeRequest (requestOf context step input)).1.Own execution names :=
    ⟨own, named⟩
  have free : environment.desk.find? (requestOf context step input).key = none := by
    rw [Desk.find?_eq_none_iff]
    intro entry lies same
    obtain ⟨seat, held, -, key⟩ := orderly.seated entry lies
    exact (foreign seat held).key_ne ours (key.trans same)
  have desk : (environment.makeRequest (requestOf context step input)).2.desk =
      (environment.desk.sitDown (requestOf context step input)).2 := environment.desk_makeRequest _
  constructor
  case sound =>
    refine .seated ours (.asks .announcing (.inl ?_))
    rw [desk]
    exact environment.desk.letter_sitDown_self _
  case orderly =>
    rw [desk]
    exact orderly.sitDown _
  case live =>
    intro seat held live
    rw [desk]
    exact live.congr (environment.desk.letter_sitDown_of_lt _ live.issued)
  case harmless =>
    rintro ⟨-, replaced⟩
    apply replaced
    change (environment.desk.find? (requestOf context step input).key).map OpenRequest.ticket = none
    rw [free, Option.map_none]

/-- A step that asks a human goes on: no box of the others is touched. -/
theorem kept_does {environment environment' : Environment} {seat : Seat} {stage stage' : Stage}
    {deed : Deed} (sound : (Motion.seated seat stage).Sound execution environment.desk names)
    (orderly : environment.desk.Orderly (seat :: others) hands)
    (foreign : ∀ other ∈ others, other.Foreign execution names)
    (step : Stage.Step seat environment stage deed environment' stage') :
    Kept execution names others hands environment.desk (.does seat deed)
      (environment', .seated seat stage') := by
  cases sound with
  | seated own attended =>
    constructor
    case sound => exact .seated own (attended.next step)
    case orderly =>
      rcases step.desk with ⟨-, same⟩ | ⟨-, discarded⟩
      · rw [same]
        exact orderly
      · rw [discarded]
        exact orderly.discard seat.key
    case live =>
      intro other held live
      rcases step.desk with ⟨-, same⟩ | ⟨-, discarded⟩
      · rwa [same]
      · rw [discarded]
        exact live.congr (orderly.letter_discard (List.mem_cons_of_mem _ held)
          ((foreign other held).key_ne own))
    case harmless => exact fun spoils => spoils

/-- A step that has asked a human leaves: no box of the others is touched, and it was not
aborted. -/
theorem kept_leaves {environment : Environment} {seat : Seat} {outcome : Outcome}
    (sound : (Motion.seated seat (.leaving outcome)).Sound execution environment.desk names)
    (orderly : environment.desk.Orderly (seat :: others) hands)
    (foreign : ∀ other ∈ others, other.Foreign execution names) :
    Kept execution names others hands environment.desk (.leaves seat outcome)
      (environment.leave seat, .ended outcome) := by
  cases sound with
  | seated own attended =>
    constructor
    case sound => exact .ended names outcome
    case orderly => exact orderly.standUp
    case live =>
      intro other held live
      exact live.congr (orderly.letter_standUp List.mem_cons_self (List.mem_cons_of_mem _ held)
        ((foreign other held).key_ne own))
    case harmless =>
      rintro ⟨-, name, aborted⟩
      exact attended.outcome_ne name aborted

/-- Members that hold no seats hold none together. -/
theorem seatsOf_map_alone {Item : Type} (stage : Item → Stage) (items : List Item) :
    seatsOf (items.map fun item => .alone (stage item)) = [] := by
  induction items with
  | nil => rfl
  | cons item rest ih => exact ih

/-- Processes that share out names share them out when they begin. -/
theorem Sound.forks {members : List Process} {next : List Outcome → Process}
    (asks : (Process.together members next).AsksApart execution names) :
    (Motion.together (members.map Motion.going) next).Sound execution desk names := by
  cases asks with
  | together shares asks apart within later =>
    refine .together (shares.map fun share => (share.1, Motion.going share.2)) (by simp) ?_ ?_ ?_
      later
    · intro share member
      obtain ⟨first, shared, rfl⟩ := List.mem_map.mp member
      exact .going (asks first shared)
    · exact List.pairwise_map.mpr apart
    · intro share member
      obtain ⟨first, shared, rfl⟩ := List.mem_map.mp member
      exact within first shared

/-- The seats of a member may be put first. -/
theorem seatsOf_perm (earlier rest : List Motion) (motion : Motion) :
    (seatsOf (earlier ++ motion :: rest)).Perm (motion.seats ++ seatsOf (earlier ++ rest)) := by
  rw [seatsOf_append, seatsOf, seatsOf_append]
  exact List.perm_append_comm_assoc _ _ _

/-- What holds of all members holds of the one in the middle and of the others. -/
theorem forall_mem_middle {Item : Type} {property : Item → Prop} {before behind : List Item}
    {item : Item} : (∀ other ∈ before ++ item :: behind, property other) ↔
      property item ∧ ∀ other ∈ before ++ behind, property other := by
  simp only [List.perm_middle.mem_iff, List.forall_mem_cons]

/-- One of the members moves, and the others do not notice. -/
theorem kept_member {environment : Environment} {after : Environment × Motion} {motion : Motion}
    {move : Move} {earlier rest : List Motion} {next : List Outcome → Process}
    (sound : (Motion.together (earlier ++ motion :: rest) next).Sound execution environment.desk
      names)
    (orderly : environment.desk.Orderly (seatsOf (earlier ++ motion :: rest) ++ others) hands)
    (foreign : ∀ seat ∈ others, seat.Foreign execution names)
    (kept : ∀ names others, motion.Sound execution environment.desk names →
      environment.desk.Orderly (motion.seats ++ others) hands →
      (∀ seat ∈ others, seat.Foreign execution names) →
      Kept execution names others hands environment.desk move after) :
    Kept execution names others hands environment.desk move
      (after.1, .together (earlier ++ after.2 :: rest) next) := by
  cases sound with
  | together shares same sound apart within later =>
    obtain ⟨before, second, rfl, rfl, cut⟩ := List.map_eq_append_iff.mp same
    obtain ⟨⟨share, motion⟩, behind, rfl, rfl, rfl⟩ := List.map_eq_cons_iff.mp cut
    obtain ⟨soundOne, soundOthers⟩ := forall_mem_middle.mp sound
    obtain ⟨withinOne, withinOthers⟩ := forall_mem_middle.mp within
    have symmetric : ∀ {first second : List String × Motion}, first.1.Disjoint second.1 →
        second.1.Disjoint first.1 := fun disjoint _ inSecond inFirst => disjoint inFirst inSecond
    obtain ⟨apartOne, apartOthers⟩ :=
      List.pairwise_cons.mp ((List.pairwise_middle symmetric).mp apart)
    have siblings : seatsOf (before.map Prod.snd ++ behind.map Prod.snd) =
        seatsOf ((before ++ behind).map Prod.snd) := by rw [List.map_append]
    have held : ∀ other ∈ before ++ behind, ∀ seat ∈ other.2.seats,
        seat ∈ seatsOf (before.map Prod.snd ++ behind.map Prod.snd) := by
      intro other member seat held
      rw [siblings]
      exact mem_seatsOf.mpr ⟨_, List.mem_map_of_mem member, held⟩
    -- The seats of the other members are foreign to the share of the one that moves.
    have result := kept share (seatsOf (before.map Prod.snd ++ behind.map Prod.snd) ++ others)
      soundOne (by
        rw [← List.append_assoc]
        exact orderly.perm ((seatsOf_perm _ _ motion).append_right others)) (by
        intro seat held
        rcases List.mem_append.mp held with sibling | other
        · rw [siblings] at sibling
          obtain ⟨_, inside, held⟩ := mem_seatsOf.mp sibling
          obtain ⟨other, member, rfl⟩ := List.mem_map.mp inside
          have own := (soundOthers other member).own seat held
          exact .inr fun shared => apartOne other member shared own.2
        · exact (foreign seat other).imp_right fun absent shared => absent (withinOne shared))
    constructor
    case sound =>
      refine .together (before ++ (share, after.2) :: behind) (by simp) ?_ ?_ ?_ later
      · refine forall_mem_middle.mpr ⟨result.sound, fun other member => ?_⟩
        exact (soundOthers other member).frame fun seat sits =>
          result.live seat (List.mem_append_left _ (held other member seat sits))
      · exact (List.pairwise_middle symmetric).mpr (List.pairwise_cons.mpr ⟨apartOne, apartOthers⟩)
      · exact forall_mem_middle.mpr ⟨withinOne, withinOthers⟩
    case orderly =>
      have all := result.orderly
      rw [← List.append_assoc] at all
      exact all.perm ((seatsOf_perm _ _ after.2).symm.append_right others)
    case live => exact fun seat held => result.live seat (List.mem_append_right _ held)
    case harmless => exact result.harmless

/-- Every move of the steps in progress keeps them apart and attended to. -/
theorem Step.kept {before after : Environment × Motion} {move : Move} (step : Step before move after)
    (sound : before.2.Sound execution before.1.desk names)
    (orderly : before.1.desk.Orderly (before.2.seats ++ others) hands)
    (foreign : ∀ seat ∈ others, seat.Foreign execution names) :
    Kept execution names others hands before.1.desk move after := by
  induction step generalizing names others with
  | goes seat step quiet => exact .quiet quiet (sound.alone step) orderly
  | @sits environment environment' seat context step input made =>
    cases sound with
    | going asks =>
      obtain ⟨own, named⟩ := own_of_asksApart asks
      have result := kept_sits context step input own named orderly foreign
      rw [made] at result
      exact result
  | does step => exact kept_does sound orderly foreign step
  | leaves environment seat outcome => exact kept_leaves sound orderly foreign
  | forks environment members next =>
    cases sound with
    | going asks =>
      refine .quiet rfl (.forks asks) ?_
      rw [seats, seatsOf_map_alone]
      exact orderly
  | member earlier rest next step ih =>
    exact kept_member sound orderly foreign fun names others => ih
  | joins environment outcomes next =>
    cases sound with
    | together shares same sound apart within later =>
      refine .quiet rfl (.going (later outcomes)) ?_
      rw [seats, seatsOf_map_alone] at orderly
      exact orderly

end Motion

end Workflow
