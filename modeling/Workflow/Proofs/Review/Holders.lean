import Workflow.Proofs.Review.View

/-!
# Whose requests lie on the desk

A request lies on the desk only while the step that made it goes on, and only as long as nobody
makes another request under its key: the request under a key is that of the last one who came with
it. Whoever ends, for whatever reason, takes the request under his key with him. So this holds in
every order in which steps make requests, go on, end and are dropped, and decisions are handed in.
-/
namespace Workflow

/-- The step in a seat ends with a move. -/
def Move.Ends (seat : Seat) : Move → Prop
  | .leaves other _ | .dropped other => other = seat
  | _ => False

/-- A request is made under a key with a move. -/
def Move.Asks (key : ReviewKey) : Move → Prop
  | .sits seat => seat.key = key
  | _ => False

/-- A step got its seat in one of some moves; it has not ended since, and no request has been made
under its key. -/
def Seat.Latest (seat : Seat) (moves : List Move) : Prop :=
  ∃ before since, moves = before ++ .sits seat :: since ∧
    ∀ move ∈ since, ¬move.Ends seat ∧ ¬move.Asks seat.key

/-- The seat that was taken last is the latest. -/
theorem Seat.Latest.begun (seat : Seat) (moves : List Move) :
    seat.Latest (moves ++ [.sits seat]) := ⟨moves, [], rfl, by simp⟩

/-- A seat stays the latest while its step goes on and nobody else asks under its key. -/
theorem Seat.Latest.more {seat : Seat} {moves : List Move} (latest : seat.Latest moves)
    {move : Move} (goesOn : ¬move.Ends seat) (last : ¬move.Asks seat.key) :
    seat.Latest (moves ++ [move]) := by
  obtain ⟨before, since, rfl, kept⟩ := latest
  refine ⟨before, since ++ [move], by simp, fun other member => ?_⟩
  rcases List.mem_append.mp member with earlier | new
  · exact kept other earlier
  · obtain rfl := List.mem_singleton.mp new
    exact ⟨goesOn, last⟩

namespace Hall

/-- What lies on the desk after a move lay there before, or has just been put there. -/
theorem Changes.mem_entries {desk desk' : Desk} {move : Move} (changes : Changes desk move desk')
    {entry : OpenRequest} (lies : entry ∈ desk'.entries) :
    entry ∈ desk.entries ∨ ∃ request, move = .sits (desk.sitDown request).1 ∧
      entry = ⟨request, desk.letters.length⟩ := by
  cases changes with
  | made request =>
    rcases (desk.mem_sitDown request entry).mp lies with ⟨before, -⟩ | new
    · exact .inl before
    · exact .inr ⟨request, rfl, new⟩
  | kept | untouched => exact .inl lies
  | expired seat => exact .inl ((desk.mem_discard seat.key entry).mp lies).1
  | left seat | dropped seat => exact .inl ((desk.mem_standUp seat entry).mp lies).1
  | taken key => exact .inl ((desk.mem_without key entry).mp lies).1
  | sent => exact .inl (by simpa using lies)

/-- A move that ends a step or asks under its key takes the request under the key off the desk. -/
theorem clears_of_ends {seat : Seat} {move : Move}
    (disturbs : move.Ends seat ∨ move.Asks seat.key) : move.clears? = some seat.key := by
  cases move with
  | sits other =>
    have same := disturbs.resolve_left id
    exact congrArg some same
  | leaves other outcome | dropped other =>
    have same := disturbs.resolve_right id
    exact congrArg (some ·.key) same
  | does | takes | sends | elsewhere => exact (disturbs.elim id id).elim

/-- A request on the desk belongs to a step that goes on and was the last to ask under its key. -/
def Held (hall : Hall) (moves : List Move) (entry : OpenRequest) : Prop :=
  ∃ seat ∈ hall.seats, seat.ticket = entry.ticket ∧ seat.key = entry.key ∧ seat.Latest moves

/-- Every move leaves the requests on the desk held by the latest seats. -/
theorem Step.held {hall hall' : Hall} {move : Move} (step : hall.Step move hall')
    (orderly : hall.Orderly) {moves : List Move}
    (held : ∀ entry ∈ hall.desk.entries, hall.Held moves entry) :
    ∀ entry ∈ hall'.desk.entries, hall'.Held (moves ++ [move]) entry := by
  intro entry lies
  obtain ⟨owner, ownerHeld, box, key⟩ := (step.orderly orderly).seated entry lies
  refine ⟨owner, ownerHeld, box, key, ?_⟩
  rcases step.changes.mem_entries lies with before | ⟨request, rfl, rfl⟩
  · -- The owner is the one that held the seat before.
    obtain ⟨seat, seatHeld, sameBox, sameKey, latest⟩ := held entry before
    have issued := orderly.entry_issued before
    have ownerBefore := step.seat_before ownerHeld (box ▸ issued)
    have same : seat = owner := orderly.seat_eq seatHeld ownerBefore (sameBox.trans box.symm)
    subst same
    have stays : ¬(move.Ends seat ∨ move.Asks seat.key) := by
      intro disturbs
      have clears := clears_of_ends disturbs
      rw [sameKey] at clears
      exact (step.changes.lost_iff before issued).mpr clears lies
    exact latest.more (fun ends => stays (.inl ends)) fun asks => stays (.inr asks)
  · -- Of those in the hall only the newcomer looks into a fresh box.
    rcases step.seats ownerHeld with ownerBefore | ⟨new, -⟩
    · have issued := orderly.issued owner ownerBefore
      rw [box] at issued
      exact absurd issued (Nat.lt_irrefl _)
    · rw [new]
      exact .begun owner moves

/-- Whatever has happened since the hall was opened, every request on the desk is that of a step
that goes on and was the last to ask under its key. -/
theorem Run.held {environment : Environment} {moves : List Move} {hall : Hall}
    (run : (opening environment).Run moves hall) :
    ∀ entry ∈ hall.desk.entries, hall.Held moves entry := by
  induction run with
  | here => simp [opening, desk, Desk.empty]
  | next earlier step ih => exact step.held earlier.orderly ih

/-- When nobody is in the hall, nothing lies on the desk. -/
theorem Run.entries_nil {environment : Environment} {moves : List Move} {hall : Hall}
    (run : (opening environment).Run moves hall) (nobody : hall.sitters = []) :
    hall.desk.entries = [] := by
  rw [List.eq_nil_iff_forall_not_mem]
  intro entry lies
  obtain ⟨seat, held, -⟩ := run.held entry lies
  simp [seats, nobody] at held

end Hall

end Workflow
