import Workflow.Proofs.Review.Hall

/-!
# How requests leave the desk

A request should leave the desk only because somebody takes it in order to answer it, because a
later request replaces it, or because the step ends that made it. But a step that ends, or whose
limit is over, discards whatever request lies under its key. `Hall.Overreaches` says that this is
the request of another step, and it is the only way in which a request is lost.
-/
namespace Workflow

/-- The key under which a move takes a request off the desk. -/
def Move.clears? : Move → Option ReviewKey
  | .sits seat => some seat.key
  | .does seat (.expired true) => some seat.key
  | .does _ _ => none
  | .leaves seat _ => some seat.key
  | .dropped seat => some seat.key
  | .takes key _ => some key
  | .sends _ _ _ => none
  | .elsewhere => none

/-- The seat of a step that discards the request under its key. -/
def Move.discards? : Move → Option Seat
  | .does seat (.expired true) => some seat
  | .leaves seat _ => some seat
  | .dropped seat => some seat
  | _ => none

/-- A move that takes a request off the desk as it should. -/
inductive Move.Accounts (entry : OpenRequest) : Move → Prop where
  /-- A later request with the same key replaces it. -/
  | replaced (seat : Seat) (same : seat.key = entry.key) : Accounts entry (.sits seat)
  /-- Somebody takes it in order to answer it. -/
  | taken (ticket : Option Ticket) : Accounts entry (.takes entry.key ticket)
  | expired (seat : Seat) (own : seat.ticket = entry.ticket) :
      Accounts entry (.does seat (.expired true))
  | ended (seat : Seat) (outcome : Outcome) (own : seat.ticket = entry.ticket) :
      Accounts entry (.leaves seat outcome)
  | dropped (seat : Seat) (own : seat.ticket = entry.ticket) : Accounts entry (.dropped seat)

namespace Hall

/-- A move discards a request that another step has made. -/
def Overreaches (hall : Hall) (move : Move) (entry : OpenRequest) : Prop :=
  entry ∈ hall.desk.entries ∧ ∃ seat, move.discards? = some seat ∧ seat.key = entry.key ∧
    seat.ticket ≠ entry.ticket

/-- Only somebody with a seat discards a request. -/
theorem Step.seat_mem {hall hall' : Hall} {move : Move} (step : hall.Step move hall')
    {seat : Seat} (discards : move.discards? = some seat) : seat ∈ hall.seats := by
  cases step with
  | @does _ _ own stage stage' deed before after hands step =>
    have same : own = seat := by
      cases step <;> simp_all [Move.discards?]
    simp [seats, same]
  | leaves | dropped =>
    obtain rfl := Option.some.inj discards
    simp [seats]
  | _ => simp [Move.discards?] at discards

/-- What the desk has become when a step has discarded the request under its key. -/
theorem Changes.of_discards {desk desk' : Desk} {move : Move} (changes : Changes desk move desk')
    {seat : Seat} (discards : move.discards? = some seat) :
    desk' = desk.discard seat.key ∨ desk' = desk.standUp seat := by
  cases changes with
  | expired =>
    obtain rfl := Option.some.inj discards
    exact .inl rfl
  | left | dropped =>
    obtain rfl := Option.some.inj discards
    exact .inr rfl
  | kept seat unexpired =>
    rename_i deed
    rcases deed with _ | _ | _ | _ | (_ | _) <;> simp [Move.discards?] at discards unexpired
  | made | taken | sent | untouched => simp [Move.discards?] at discards

/-- A request that lies on the desk leaves it in a move exactly if the move clears its key. -/
theorem Changes.lost_iff {desk desk' : Desk} {move : Move} (changes : Changes desk move desk')
    {entry : OpenRequest} (member : entry ∈ desk.entries)
    (issued : entry.ticket < desk.letters.length) :
    entry ∉ desk'.entries ↔ move.clears? = some entry.key := by
  cases changes with
  | made request =>
    have old : entry ≠ ⟨request, desk.letters.length⟩ := by
      rintro rfl
      exact Nat.lt_irrefl _ issued
    rw [Desk.mem_sitDown]
    simp [Move.clears?, Desk.seat_sitDown, member, old, eq_comm]
  | kept seat unexpired =>
    rename_i deed
    rcases deed with _ | _ | _ | _ | (_ | _) <;> simp_all [Move.clears?]
  | expired seat => simp [Move.clears?, Desk.mem_discard, member, eq_comm]
  | left seat outcome => simp [Move.clears?, Desk.mem_standUp, member, eq_comm]
  | dropped seat => simp [Move.clears?, Desk.mem_standUp, member, eq_comm]
  | taken key ticket => simp [Move.clears?, Desk.mem_without, member, eq_comm]
  | sent ticket decision => simpa [Move.clears?] using member
  | untouched => simpa [Move.clears?] using member

/-! ## The law and its exception -/

/-- A request that a move takes off the desk leaves it as it should, unless the move discards it for
another step. -/
theorem accounts_or_overreaches {hall : Hall} {move : Move} {entry : OpenRequest}
    (member : entry ∈ hall.desk.entries) (clears : move.clears? = some entry.key) :
    move.Accounts entry ∨ hall.Overreaches move entry := by
  -- Only a move with a seat whose request is another one is no account of the request.
  have split : ∀ seat : Seat, seat.key = entry.key → move.discards? = some seat →
      (seat.ticket = entry.ticket → move.Accounts entry) →
      move.Accounts entry ∨ hall.Overreaches move entry := by
    intro seat key discards own
    by_cases same : seat.ticket = entry.ticket
    · exact .inl (own same)
    · exact .inr ⟨member, seat, discards, key, same⟩
  cases move with
  | sits seat => exact .inl (.replaced seat (Option.some.inj clears))
  | takes key ticket =>
    obtain rfl := Option.some.inj clears
    exact .inl (.taken ticket)
  | leaves seat outcome => exact split seat (Option.some.inj clears) rfl (.ended seat outcome)
  | dropped seat => exact split seat (Option.some.inj clears) rfl (.dropped seat)
  | does seat deed =>
    rcases deed with _ | _ | _ | _ | (_ | _)
    case expired.true => exact split seat (Option.some.inj clears) rfl (.expired seat)
    all_goals exact absurd clears (by simp [Move.clears?])
  | sends | elsewhere => exact absurd clears (by simp [Move.clears?])

/-- A move that overreaches clears the key of the request. -/
theorem Overreaches.clears {hall : Hall} {move : Move} {entry : OpenRequest}
    (overreaches : hall.Overreaches move entry) : move.clears? = some entry.key := by
  obtain ⟨-, seat, discards, key, -⟩ := overreaches
  cases move with
  | does other deed =>
    rcases deed with _ | _ | _ | _ | (_ | _)
    all_goals simp_all [Move.discards?, Move.clears?]
  | _ => simp_all [Move.discards?, Move.clears?]

/-- A move that overreaches does not take the request off the desk as it should. -/
theorem Overreaches.not_accounts {hall : Hall} {move : Move} {entry : OpenRequest}
    (overreaches : hall.Overreaches move entry) : ¬move.Accounts entry := by
  obtain ⟨-, seat, discards, -, other⟩ := overreaches
  intro accounts
  cases accounts with
  | replaced | taken => simp [Move.discards?] at discards
  | expired own same | ended own _ same | dropped own same =>
    obtain rfl := Option.some.inj discards
    exact other same

/-- What becomes of a request that a move discards for another step: it had been made later, its
box is given up, and no decision finds it any more. -/
theorem Overreaches.consequences {hall hall' : Hall} {move : Move} {entry : OpenRequest}
    (overreaches : hall.Overreaches move entry) (step : hall.Step move hall')
    (orderly : hall.Orderly) :
    (∃ seat ∈ hall.seats, move.discards? = some seat ∧ seat.ticket < entry.ticket) ∧
    hall'.desk.letter entry.ticket = .abandoned ∧
    ∀ decision, (hall'.desk.submit entry.key decision).1 = .noRequest := by
  have clears := overreaches.clears
  obtain ⟨member, seat, discards, key, other⟩ := overreaches
  have held := step.seat_mem discards
  have found : hall.desk.find? seat.key = some entry := by
    rw [key]
    exact orderly.find? member
  have awaited := orderly.awaited entry member
  refine ⟨⟨seat, held, discards, ?_⟩, ?_, ?_⟩
  · have latest := orderly.latest entry member seat held key
    exact Nat.lt_of_le_of_ne latest other
  · rcases step.changes.of_discards discards with discarded | left
    · rw [discarded]
      exact Desk.letter_discard_self found awaited
    · rw [left]
      exact Desk.letter_standUp_other found awaited (Ne.symm other)
  · intro decision
    have missing : hall'.desk.find? entry.key = none := by
      rw [Desk.find?_eq_none_iff]
      intro remaining lies same
      rcases step.changes.of_discards discards with discarded | left
      · rw [discarded, Desk.mem_discard] at lies
        exact lies.2 (same.trans key.symm)
      · rw [left, Desk.mem_standUp] at lies
        exact lies.2 (same.trans key.symm)
    rw [Desk.submit_of_missing missing]

/-- A request on the desk belongs to a step in the hall, and a decision about it is delivered to
that step. -/
theorem Orderly.delivered {hall : Hall} (orderly : hall.Orderly) {entry : OpenRequest}
    (member : entry ∈ hall.desk.entries) :
    (∃ seat ∈ hall.seats, seat.ticket = entry.ticket ∧ seat.key = entry.key) ∧
    ∀ decision, (hall.desk.submit entry.key decision).1 = .delivered ∧
      (hall.desk.submit entry.key decision).2.letter entry.ticket = .answered decision :=
  ⟨orderly.seated entry member, Desk.Orderly.submit orderly member⟩

/-- In every run, a request leaves the desk as it should in each move exactly if the move does not
overreach. A request for which it does is lost; one that stays can be answered. -/
theorem leaves_desk_iff {environment : Environment} {moves : List Move} {hall hall' : Hall}
    {move : Move} (run : (opening environment).Run moves hall) (step : hall.Step move hall')
    {entry : OpenRequest} (member : entry ∈ hall.desk.entries) :
    ((entry ∉ hall'.desk.entries → move.Accounts entry) ↔ ¬hall.Overreaches move entry) ∧
    (hall.Overreaches move entry → entry ∉ hall'.desk.entries ∧
      (∃ seat ∈ hall.seats, move.discards? = some seat ∧ seat.ticket < entry.ticket) ∧
      hall'.desk.letter entry.ticket = .abandoned ∧
      ∀ decision, (hall'.desk.submit entry.key decision).1 = .noRequest) ∧
    (entry ∈ hall'.desk.entries →
      (∃ seat ∈ hall'.seats, seat.ticket = entry.ticket ∧ seat.key = entry.key) ∧
      ∀ decision, (hall'.desk.submit entry.key decision).1 = .delivered ∧
        (hall'.desk.submit entry.key decision).2.letter entry.ticket = .answered decision) := by
  have orderly := run.orderly
  have lost := step.changes.lost_iff member (orderly.entry_issued member)
  refine ⟨⟨?_, ?_⟩, ?_, (step.orderly orderly).delivered⟩
  · intro law overreaches
    exact overreaches.not_accounts (law (lost.mpr overreaches.clears))
  · intro fine gone
    rcases accounts_or_overreaches member (lost.mp gone) with accounts | overreaches
    · exact accounts
    · exact absurd overreaches fine
  · intro overreaches
    exact ⟨lost.mpr overreaches.clears, overreaches.consequences step orderly⟩

/-! ## Two requests with one key -/

/-- A step that asks a human and neither notifies him nor has a time limit. -/
def plainReview (name : String) : Workflow.Step :=
  ⟨name, .humanInLoop, none, none, none, none, none, none, none, []⟩

/-- A hall in which two runs with one identifier have come to the same step. -/
def twoReviews : Hall :=
  let context := Context.start "workflow" "run" .null
  ((opening .idle).sit context (plainReview "review") .null).sit context (plainReview "review") .null

/-- The seat of the first of two requests with one key. -/
def firstSeat : Seat := ⟨⟨"run", "review"⟩, 0, none⟩

/-- The second of two requests with one key. -/
def secondRequest : OpenRequest :=
  ⟨requestOf (.start "workflow" "run" .null) (plainReview "review") .null, 1⟩

/-- Both requests are made. -/
theorem twoReviews_run : ∃ moves, (opening .idle).Run moves twoReviews :=
  ⟨_, .next (.next .here (.sits _ _ _ _)) (.sits _ _ _ _)⟩

/-- The step is dropped whose request has been replaced. -/
theorem twoReviews_dropped :
    ∃ hall, twoReviews.Step (.dropped firstSeat) hall ∧ hall.desk.entries = [] := by
  refine ⟨_, .dropped _ [_] [] _ firstSeat _, ?_⟩
  decide

/-- The end of the step whose request was replaced discards the request that replaced it. -/
theorem newer_request_lost : ¬∀ (environment : Environment) (moves : List Move)
    (hall hall' : Hall) (move : Move) (entry : OpenRequest),
    (opening environment).Run moves hall → hall.Step move hall' → entry ∈ hall.desk.entries →
    entry ∉ hall'.desk.entries → move.Accounts entry := by
  intro claim
  obtain ⟨moves, run⟩ := twoReviews_run
  obtain ⟨hall, step, cleared⟩ := twoReviews_dropped
  have accounts := claim .idle moves twoReviews hall _ secondRequest run step (by decide)
    (by rw [cleared]; exact List.not_mem_nil)
  cases accounts with
  | dropped seat own => exact absurd own (by decide)

/-- The second of two requests with one key can no longer be answered when the step of the first
one has been dropped. -/
theorem second_request_unanswerable : ∃ hall, twoReviews.Step (.dropped firstSeat) hall ∧
    ∀ decision, (hall.desk.submit ⟨"run", "review"⟩ decision).1 = .noRequest := by
  obtain ⟨moves, run⟩ := twoReviews_run
  obtain ⟨hall, step, cleared⟩ := twoReviews_dropped
  have member : secondRequest ∈ twoReviews.desk.entries := by decide
  have law := leaves_desk_iff run step member
  have overreaches : twoReviews.Overreaches (.dropped firstSeat) secondRequest :=
    ⟨member, firstSeat, rfl, by decide, by decide⟩
  exact ⟨hall, step, (law.2.1 overreaches).2.2.2⟩

end Hall

end Workflow
