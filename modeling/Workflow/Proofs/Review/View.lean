import Workflow.Proofs.Review.Removal

/-!
# Moves as one step sees them

For a step that is the only one with its key, the moves in the hall are of few kinds: its own, those
that take its request or send a decision to its box, and those that leave alone everything it has to
do with. `Hall.View` lists them, and `Hall.Step.view` says that there are no others.
-/
namespace Workflow

namespace Hall

variable {hall hall' : Hall} {seat : Seat} {move : Move}

/-- A step holds a seat, and no other step has its key. -/
structure Alone (hall : Hall) (seat : Seat) : Prop where
  held : seat ∈ hall.seats
  /-- Other seats have other keys. -/
  only : ∀ other ∈ hall.seats, other.key = seat.key → other = seat

/-- The request of a step lies on the desk. -/
def Lies (hall : Hall) (seat : Seat) : Prop :=
  ∃ entry ∈ hall.desk.entries, entry.ticket = seat.ticket

/-- Nothing that a step has to do with has changed. -/
structure Undisturbed (seat : Seat) (hall hall' : Hall) : Prop where
  /-- Its box is as it was. -/
  letter : hall'.desk.letter seat.ticket = hall.desk.letter seat.ticket
  /-- Its request still lies on the desk if it did. -/
  lies : hall.Lies seat → hall'.Lies seat
  /-- Its box is still in somebody's hands if it was. -/
  hands : seat.ticket ∈ hall.hands → seat.ticket ∈ hall'.hands
  /-- It is in the same stage. -/
  sitters : ∀ stage, ⟨seat, stage⟩ ∈ hall.sitters → ⟨seat, stage⟩ ∈ hall'.sitters

/-- A move as a step sees it that is the only one with its key. -/
inductive View (seat : Seat) (hall hall' : Hall) : Move → Prop where
  | own {stage stage' : Stage} {deed : Deed} (sits : ⟨seat, stage⟩ ∈ hall.sitters)
      (step : Stage.Step seat hall.environment stage deed hall'.environment stage')
      (sits' : ⟨seat, stage'⟩ ∈ hall'.sitters) (hands : hall'.hands = hall.hands) :
      View seat hall hall' (.does seat deed)
  | left {outcome : Outcome} (sits : ⟨seat, .leaving outcome⟩ ∈ hall.sitters)
      (desk : hall'.desk = hall.desk.standUp seat)
      (gone : ∀ other ∈ hall'.seats, other.ticket ≠ seat.ticket) :
      View seat hall hall' (.leaves seat outcome)
  /-- Somebody takes the request under the key. -/
  | taken (after : hall' = hall.take seat.key) (ticket : Option Ticket) :
      View seat hall hall' (.takes seat.key ticket)
  /-- Somebody sends a decision to the box. -/
  | sent (decision : Decision) (held : seat.ticket ∈ hall.hands)
      (desk : hall'.desk = (hall.desk.send seat.ticket decision).2)
      (same : hall'.sitters = hall.sitters) :
      View seat hall hall'
        (.sends seat.ticket decision (hall.desk.send seat.ticket decision).1)
  /-- Something else happens. -/
  | other (undisturbed : Undisturbed seat hall hall') (move : Move)
      (notDoes : ∀ deed, move ≠ .does seat deed) (notLeaves : ∀ outcome, move ≠ .leaves seat outcome)
      (notSends : ∀ decision submission, move ≠ .sends seat.ticket decision submission) :
      View seat hall hall' move

/-! ## The request of a step -/

/-- The request of a step that lies on the desk is the one under its key. -/
theorem Orderly.key_eq_of_lies (orderly : hall.Orderly) (held : seat ∈ hall.seats)
    (lies : hall.Lies seat) : ∃ entry, hall.desk.find? seat.key = some entry ∧
      entry.ticket = seat.ticket := by
  obtain ⟨entry, member, own⟩ := lies
  have key := Desk.Orderly.key_eq orderly held member own
  exact ⟨entry, key ▸ Desk.Orderly.find? orderly member, own⟩

/-- The request under the key of a step that is the only one with it is its own. -/
theorem Orderly.own_of_find? (orderly : hall.Orderly) (alone : hall.Alone seat)
    {entry : OpenRequest} (found : hall.desk.find? seat.key = some entry) :
    entry ∈ hall.desk.entries ∧ entry.ticket = seat.ticket := by
  obtain ⟨member, key⟩ := Desk.of_find? found
  obtain ⟨owner, held, sameBox, sameKey⟩ := orderly.seated entry member
  have own : owner = seat := alone.only owner held (sameKey.trans key)
  exact ⟨member, by rw [← sameBox, own]⟩

/-- The request of a step stays on the desk in a move that does not clear its key. -/
theorem Step.lies (step : hall.Step move hall') (orderly : hall.Orderly)
    (held : seat ∈ hall.seats) (kept : move.clears? ≠ some seat.key) (lies : hall.Lies seat) :
    hall'.Lies seat := by
  obtain ⟨entry, member, own⟩ := lies
  have key := Desk.Orderly.key_eq orderly held member own
  by_contra gone
  have lost : entry ∉ hall'.desk.entries := fun stays => gone ⟨entry, stays, own⟩
  have issued := orderly.entry_issued member
  exact kept (key ▸ (step.changes.lost_iff member issued).mp lost)

/-- Sitters in one seat are in one stage. -/
theorem Orderly.stage_eq (orderly : hall.Orderly) {first second : Stage}
    (firstSits : ⟨seat, first⟩ ∈ hall.sitters) (secondSits : ⟨seat, second⟩ ∈ hall.sitters) :
    first = second := by
  have distinct : (hall.sitters.map fun sitter => sitter.seat.ticket).Nodup := by
    have boxes := orderly.ownBoxes
    rwa [seats, List.map_map] at boxes
  have same := List.inj_on_of_nodup_map distinct firstSits secondSits rfl
  exact congrArg Sitter.stage same

/-! ## What lasts -/

/-- Whoever holds a seat after a move held it before or has just got it. -/
theorem Step.seats (step : hall.Step move hall') {other : Seat} (held : other ∈ hall'.seats) :
    other ∈ hall.seats ∨ (move = .sits other ∧ other.ticket = hall.desk.letters.length) := by
  cases step with
  | sits _ context step input =>
    rcases List.mem_cons.mp held with rfl | held
    · exact .inr ⟨rfl, rfl⟩
    · exact .inl held
  | takes | sends | elsewhere => exact .inl held
  | does | leaves | dropped =>
    left
    simp only [Hall.seats, List.map_append, List.map_cons, List.mem_append, List.mem_cons] at held ⊢
    tauto

/-- Whoever looks into a box that is not fresh has held his seat before. -/
theorem Step.seat_before (step : hall.Step move hall') {other : Seat} (held : other ∈ hall'.seats)
    (issued : other.ticket < hall.desk.letters.length) : other ∈ hall.seats := by
  rcases step.seats held with before | ⟨-, fresh⟩
  · exact before
  · exact absurd fresh (Nat.ne_of_lt issued)

/-- Nobody comes to look into a box that nobody looks into any more. -/
theorem Step.unwatched (step : hall.Step move hall') {ticket : Ticket}
    (issued : ticket < hall.desk.letters.length)
    (gone : ∀ other ∈ hall.seats, other.ticket ≠ ticket) :
    ∀ other ∈ hall'.seats, other.ticket ≠ ticket := by
  rintro other held rfl
  exact gone other (step.seat_before held issued) rfl

/-- A step that keeps its seat stays the only one with its key, unless another one comes. -/
theorem Step.alone (step : hall.Step move hall') (alone : hall.Alone seat)
    (keyFree : ∀ other, move = .sits other → other.key ≠ seat.key) {stage : Stage}
    (sits : ⟨seat, stage⟩ ∈ hall'.sitters) : hall'.Alone seat := by
  refine ⟨List.mem_map.mpr ⟨_, sits, rfl⟩, fun other otherHeld same => ?_⟩
  rcases step.seats otherHeld with before | ⟨new, -⟩
  · exact alone.only other before same
  · exact absurd same (keyFree other new)

/-- Boxes are never taken away. -/
theorem Changes.length_le {desk desk' : Desk} (changes : Changes desk move desk') :
    desk.letters.length ≤ desk'.letters.length := by
  cases changes with
  | made request =>
    rw [Desk.length_sitDown]
    exact Nat.le_succ _
  | kept | untouched => exact Nat.le_refl _
  | expired | left | dropped | sent => simp
  | taken => exact Nat.le_refl _

/-- A box that is settled stays so. -/
theorem Changes.settled {desk desk' : Desk} (changes : Changes desk move desk') {ticket : Ticket}
    (issued : ticket < desk.letters.length) (settled : desk.letter ticket ≠ .awaited) :
    desk'.letter ticket ≠ .awaited := by
  cases changes with
  | made request =>
    rw [Desk.letter_sitDown_of_lt _ request issued]
    exact settled
  | kept | untouched => exact settled
  | expired seat => exact Desk.settled_discard seat.key settled
  | left | dropped => exact Desk.settled_standUp settled
  | taken =>
    rw [Desk.letter_without]
    exact settled
  | sent other decision => exact Desk.settled_send decision settled

/-! ## All moves are of these kinds -/

/-- A sitter other than the one in the middle sits on one of its sides. -/
theorem mem_sides {before after : List Sitter} {middle sitter : Sitter}
    (other : middle.seat ≠ sitter.seat) (member : sitter ∈ before ++ middle :: after) :
    sitter ∈ before ∨ sitter ∈ after := by
  rcases List.mem_append.mp member with earlier | later
  · exact .inl earlier
  · rcases List.mem_cons.mp later with rfl | later
    · exact absurd rfl other
    · exact .inr later

/-- What a step in another seat does is no concern of a step that is the only one with its key. -/
theorem Undisturbed.of_does {environment environment' : Environment} {other : Seat}
    {stage stage' : Stage} {deed : Deed} (before after : List Sitter) (hands : List Ticket)
    (step : Stage.Step other environment stage deed environment' stage')
    (orderly : Orderly ⟨environment, before ++ ⟨other, stage⟩ :: after, hands⟩)
    (alone : Alone ⟨environment, before ++ ⟨other, stage⟩ :: after, hands⟩ seat)
    (notOwn : other ≠ seat) :
    Undisturbed seat ⟨environment, before ++ ⟨other, stage⟩ :: after, hands⟩
      ⟨environment', before ++ ⟨other, stage'⟩ :: after, hands⟩ := by
  have otherHeld : other ∈ (before ++ ⟨other, stage⟩ :: after).map Sitter.seat := by simp
  have otherKey : other.key ≠ seat.key := fun same => notOwn (alone.only other otherHeld same)
  constructor
  · change environment'.desk.letter seat.ticket = environment.desk.letter seat.ticket
    rcases step.desk with ⟨-, kept⟩ | ⟨-, discarded⟩
    · rw [kept]
    · rw [discarded]
      exact Desk.Orderly.letter_discard orderly alone.held (Ne.symm otherKey)
  · refine (Step.does before after hands step).lies orderly alone.held ?_
    rcases deed with _ | _ | _ | _ | (_ | _) <;> simp [Move.clears?, otherKey]
  · exact id
  · intro own member
    rcases mem_sides notOwn member with earlier | later
    · exact List.mem_append_left _ earlier
    · exact List.mem_append_right _ (List.mem_cons_of_mem _ later)

/-- The end of a step in another seat is no concern of a step that is the only one with its key. -/
theorem Undisturbed.of_standUp {environment environment' : Environment} {other : Seat}
    {stage : Stage} {before after : List Sitter} {hands : List Ticket}
    (orderly : Orderly ⟨environment, before ++ ⟨other, stage⟩ :: after, hands⟩)
    (alone : Alone ⟨environment, before ++ ⟨other, stage⟩ :: after, hands⟩ seat)
    (notOwn : other ≠ seat) (desk : environment'.desk = environment.desk.standUp other) :
    Undisturbed seat ⟨environment, before ++ ⟨other, stage⟩ :: after, hands⟩
      ⟨environment', before ++ after, hands⟩ := by
  have otherHeld : other ∈ (before ++ ⟨other, stage⟩ :: after).map Sitter.seat := by simp
  have otherKey : other.key ≠ seat.key := fun same => notOwn (alone.only other otherHeld same)
  constructor
  · change environment'.desk.letter seat.ticket = environment.desk.letter seat.ticket
    rw [desk]
    exact Desk.Orderly.letter_standUp orderly otherHeld alone.held (Ne.symm otherKey)
  · rintro ⟨entry, member, own⟩
    have key := Desk.Orderly.key_eq orderly alone.held member own
    refine ⟨entry, ?_, own⟩
    change entry ∈ environment'.desk.entries
    rw [desk, Desk.mem_standUp, key]
    exact ⟨member, Ne.symm otherKey⟩
  · exact id
  · intro own member
    rcases mem_sides notOwn member with earlier | later
    · exact List.mem_append_left _ earlier
    · exact List.mem_append_right _ later

/-- When a sitter goes nobody else looks into its box. -/
theorem Orderly.box_free {environment : Environment} {stage : Stage}
    {before after : List Sitter} {hands : List Ticket}
    (orderly : Orderly ⟨environment, before ++ ⟨seat, stage⟩ :: after, hands⟩) :
    ∀ other ∈ (before ++ after).map Sitter.seat, other.ticket ≠ seat.ticket := by
  have boxes := (Desk.Orderly.perm orderly (seats_perm before after _)).ownBoxes
  intro other held same
  exact (List.nodup_cons.mp boxes).1 (List.mem_map.mpr ⟨other, held, same⟩)

/-- Every move is of one of these kinds, if it neither drops the step nor makes another request with
its key. -/
theorem Step.view (step : hall.Step move hall') (orderly : hall.Orderly) (alone : hall.Alone seat)
    (notDropped : move ≠ .dropped seat) (keyFree : ∀ other, move = .sits other →
      other.key ≠ seat.key) : View seat hall hall' move := by
  cases step with
  | sits _ context step input =>
    have kept := (Step.sits hall context step input).lies orderly alone.held fun clears =>
      keyFree _ rfl (Option.some.inj clears)
    have undisturbed : Undisturbed seat hall (hall.sit context step input) := by
      refine ⟨?_, kept, id, fun _ => List.mem_cons_of_mem _⟩
      rw [desk_sit, Desk.letter_sitDown_of_lt _ _ (orderly.issued seat alone.held)]
    exact .other undisturbed _ (by simp) (by simp) (by simp)
  | @does environment environment' other stage stage' deed before after hands step =>
    by_cases own : other = seat
    · subst own
      exact .own (by simp) step (by simp) rfl
    · exact .other (.of_does before after hands step orderly alone own) _ (by simp [own]) (by simp)
        (by simp)
  | leaves environment before after hands other outcome =>
    by_cases own : other = seat
    · subst own
      exact .left (by simp) rfl orderly.box_free
    · exact .other (.of_standUp orderly alone own rfl) _ (by simp) (by simp [own]) (by simp)
  | dropped environment before after hands other stage =>
    have own : other ≠ seat := fun same => notDropped (same ▸ rfl)
    have desk : ((stage.cancel environment).leave other).desk = environment.desk.standUp other := by
      rw [Environment.desk_leave, Stage.desk_cancel]
    exact .other (.of_standUp orderly alone own desk) _ (by simp) (by simp) (by simp)
  | takes _ key =>
    by_cases own : key = seat.key
    · subst own
      exact .taken rfl _
    · have kept := (Step.takes hall key).lies orderly alone.held (by simpa [Move.clears?] using own)
      have undisturbed : Undisturbed seat hall (hall.take key) := by
        refine ⟨?_, kept, List.mem_append_right _, fun _ => id⟩
        rw [desk_take, Desk.letter_without]
      exact .other undisturbed _ (by simp) (by simp) (by simp)
  | sends environment sitters before after ticket decision =>
    by_cases own : ticket = seat.ticket
    · subst own
      exact .sent decision (by simp) rfl rfl
    · have kept := (Step.sends environment sitters before after ticket decision).lies orderly
        alone.held (by simp [Move.clears?])
      have undisturbed : Undisturbed seat ⟨environment, sitters, before ++ ticket :: after⟩
          ⟨{ environment with desk := (environment.desk.send ticket decision).2 }, sitters,
            before ++ after⟩ := by
        refine ⟨environment.desk.letter_send_of_ne (Ne.symm own) decision, kept, ?_, fun _ => id⟩
        intro held
        rcases List.mem_append.mp held with earlier | later
        · exact List.mem_append_left _ earlier
        · rcases List.mem_cons.mp later with same | later
          · exact absurd same.symm own
          · exact List.mem_append_right _ later
      exact .other undisturbed _ (by simp) (by simp) (by simp [own])
  | @elsewhere environment environment' sitters hands same later =>
    have kept := (Step.elsewhere sitters hands same later).lies orderly alone.held
      (by simp [Move.clears?])
    have undisturbed : Undisturbed seat ⟨environment, sitters, hands⟩
        ⟨environment', sitters, hands⟩ :=
      ⟨congrArg (Desk.letter · seat.ticket) same, kept, id, fun _ => id⟩
    exact .other undisturbed _ (by simp) (by simp) (by simp)

end Hall

end Workflow
