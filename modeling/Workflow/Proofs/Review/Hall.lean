import Workflow.Proofs.Execution.Stages
import Workflow.Proofs.Review.Seats

/-!
# The hall

Any number of steps that ask humans are in progress on one engine, each with a seat at the one desk,
and any number of decisions are handed in. `Hall.Step` is one move of one of them, and `Hall.Run`
any order of their moves: a step goes on by a step of the slow motion, or is dropped, and a decision
is handed in by two moves, of which the first takes the request and the second answers it.

The desk stays orderly in every run. A turn of a step on an engine is a run of such moves.
-/
namespace Workflow

/-- A step with a seat at the desk. -/
structure Sitter where
  seat : Seat
  /-- What it is about to do. -/
  stage : Stage

/-- The steps at a desk and those who hand in decisions. -/
structure Hall where
  /-- What all of them share. -/
  environment : Environment
  /-- The steps that hold a seat. -/
  sitters : List Sitter
  /-- The letter boxes of requests that were taken and have not been answered. -/
  hands : List Ticket

/-- A move of somebody in the hall. -/
inductive Move where
  /-- A step makes a request. -/
  | sits (seat : Seat)
  /-- A step goes on. -/
  | does (seat : Seat) (deed : Deed)
  /-- A step ends with an outcome. -/
  | leaves (seat : Seat) (outcome : Outcome)
  /-- A step is dropped. -/
  | dropped (seat : Seat)
  /-- Somebody takes the request under a key, if there is one, in order to answer it. -/
  | takes (key : ReviewKey) (taken : Option Ticket)
  /-- Somebody sends his decision to the box of the request that he took. -/
  | sends (ticket : Ticket) (decision : Decision) (submission : Submission)
  /-- Something happens that does not concern the desk. -/
  | elsewhere

/-- What is left to do for a step that is dropped, before it leaves its seat. -/
def Stage.cancel (environment : Environment) : Stage → Environment
  | .calling call _ => environment.record call.recordedAs .cancelled
  | _ => environment

/-- To cancel what a step is doing leaves the desk as it is. -/
@[simp] theorem Stage.desk_cancel (environment : Environment) (stage : Stage) :
    (stage.cancel environment).desk = environment.desk := by
  cases stage <;> simp [cancel]

namespace Hall

/-- The desk in the hall. -/
def desk (hall : Hall) : Desk := hall.environment.desk

/-- The seats that are held in the hall. -/
def seats (hall : Hall) : List Seat := hall.sitters.map Sitter.seat

/-- A hall before any request has been made. -/
def opening (environment : Environment) : Hall := ⟨{ environment with desk := .empty }, [], []⟩

/-- The seat that a step gets for its request. -/
def seatFor (hall : Hall) (context : Context) (step : Step) (input : Value) : Seat :=
  (hall.environment.makeRequest (requestOf context step input)).1

/-- The hall after a step has made its request. -/
def sit (hall : Hall) (context : Context) (step : Step) (input : Value) : Hall where
  environment := (hall.environment.makeRequest (requestOf context step input)).2
  sitters :=
    let seat := hall.seatFor context step input
    ⟨seat, .announcing (requestOf context step input) (onceSeated context step input seat)⟩ ::
      hall.sitters
  hands := hall.hands

/-- The hall after somebody has taken the request under a key, if there is one. -/
def take (hall : Hall) (key : ReviewKey) : Hall where
  environment := { hall.environment with desk := (hall.desk.take key).2 }
  sitters := hall.sitters
  hands := ((hall.desk.take key).1.map OpenRequest.ticket).toList ++ hall.hands

/-- A step that sits lays its request on the desk. -/
theorem desk_sit (hall : Hall) (context : Context) (step : Step) (input : Value) :
    (hall.sit context step input).desk = (hall.desk.sitDown (requestOf context step input)).2 :=
  hall.environment.desk_makeRequest _

/-- A request that is taken is off the desk. -/
theorem desk_take (hall : Hall) (key : ReviewKey) :
    (hall.take key).desk = hall.desk.without key := by
  rw [desk, take, Desk.take_eq]

/-- One move in the hall. -/
inductive Step : Hall → Move → Hall → Prop where
  /-- A step makes a request. -/
  | sits (hall : Hall) (context : Context) (step : Workflow.Step) (input : Value) :
      Step hall (.sits (hall.seatFor context step input)) (hall.sit context step input)
  /-- A step goes on. -/
  | does {environment environment' : Environment} {seat : Seat} {stage stage' : Stage}
      {deed : Deed} (before after : List Sitter) (hands : List Ticket)
      (step : Stage.Step seat environment stage deed environment' stage') :
      Step ⟨environment, before ++ ⟨seat, stage⟩ :: after, hands⟩ (.does seat deed)
        ⟨environment', before ++ ⟨seat, stage'⟩ :: after, hands⟩
  /-- A step ends. -/
  | leaves (environment : Environment) (before after : List Sitter) (hands : List Ticket)
      (seat : Seat) (outcome : Outcome) :
      Step ⟨environment, before ++ ⟨seat, .leaving outcome⟩ :: after, hands⟩
        (.leaves seat outcome) ⟨environment.leave seat, before ++ after, hands⟩
  /-- A step is dropped. -/
  | dropped (environment : Environment) (before after : List Sitter) (hands : List Ticket)
      (seat : Seat) (stage : Stage) :
      Step ⟨environment, before ++ ⟨seat, stage⟩ :: after, hands⟩ (.dropped seat)
        ⟨(stage.cancel environment).leave seat, before ++ after, hands⟩
  /-- Somebody takes a request. -/
  | takes (hall : Hall) (key : ReviewKey) :
      Step hall (.takes key ((hall.desk.take key).1.map OpenRequest.ticket)) (hall.take key)
  /-- Somebody answers the request that he took. -/
  | sends (environment : Environment) (sitters : List Sitter) (before after : List Ticket)
      (ticket : Ticket) (decision : Decision) :
      Step ⟨environment, sitters, before ++ ticket :: after⟩
        (.sends ticket decision (environment.desk.send ticket decision).1)
        ⟨{ environment with desk := (environment.desk.send ticket decision).2 }, sitters,
          before ++ after⟩
  /-- Something else happens, and time passes. -/
  | elsewhere {environment environment' : Environment} (sitters : List Sitter)
      (hands : List Ticket) (same : environment'.desk = environment.desk)
      (later : environment.now ≤ environment'.now) :
      Step ⟨environment, sitters, hands⟩ .elsewhere ⟨environment', sitters, hands⟩

/-! ## What a move does to the desk -/

/-- The desk before and after a move. -/
inductive Changes (desk : Desk) : Move → Desk → Prop where
  | made (request : Request) :
      Changes desk (.sits (desk.sitDown request).1) (desk.sitDown request).2
  | kept (seat : Seat) {deed : Deed} (unexpired : deed ≠ .expired true) :
      Changes desk (.does seat deed) desk
  | expired (seat : Seat) : Changes desk (.does seat (.expired true)) (desk.discard seat.key)
  | left (seat : Seat) (outcome : Outcome) :
      Changes desk (.leaves seat outcome) (desk.standUp seat)
  | dropped (seat : Seat) : Changes desk (.dropped seat) (desk.standUp seat)
  | taken (key : ReviewKey) (ticket : Option Ticket) :
      Changes desk (.takes key ticket) (desk.without key)
  | sent (ticket : Ticket) (decision : Decision) :
      Changes desk (.sends ticket decision (desk.send ticket decision).1)
        (desk.send ticket decision).2
  | untouched : Changes desk .elsewhere desk

/-- Every move changes the desk in one of these ways. -/
theorem Step.changes {hall hall' : Hall} {move : Move} (step : hall.Step move hall') :
    Changes hall.desk move hall'.desk := by
  cases step with
  | sits _ context step input =>
    rw [desk_sit]
    exact .made (requestOf context step input)
  | @does environment environment' seat stage stage' deed before after hands step =>
    change Changes environment.desk (.does seat deed) environment'.desk
    rcases step.desk with ⟨unexpired, same⟩ | ⟨rfl, discarded⟩
    · rw [same]
      exact .kept seat unexpired
    · rw [discarded]
      exact .expired seat
  | leaves environment before after hands seat outcome => exact .left seat outcome
  | dropped environment before after hands seat stage =>
    change Changes environment.desk _ ((stage.cancel environment).desk.standUp seat)
    rw [Stage.desk_cancel]
    exact .dropped seat
  | takes _ key =>
    rw [desk_take]
    exact .taken key _
  | sends environment sitters before after ticket decision => exact .sent ticket decision
  | @elsewhere environment environment' sitters hands same later =>
    change Changes environment.desk _ environment'.desk
    rw [same]
    exact .untouched

/-- Any moves in order. -/
inductive Run (start : Hall) : List Move → Hall → Prop where
  | here : Run start [] start
  | next {moves : List Move} {move : Move} {hall hall' : Hall} (run : Run start moves hall)
      (step : hall.Step move hall') : Run start (moves ++ [move]) hall'

/-! ## The desk stays orderly -/

/-- The desk of the hall is as those in the hall left it. -/
def Orderly (hall : Hall) : Prop := hall.desk.Orderly hall.seats hall.hands

/-- The seats of a hall, with that of one sitter put first. -/
theorem seats_perm (before after : List Sitter) (sitter : Sitter) :
    ((before ++ sitter :: after).map Sitter.seat).Perm
      (sitter.seat :: (before ++ after).map Sitter.seat) :=
  List.perm_middle.map Sitter.seat

/-- Every move leaves the desk orderly, also where others hold seats at it who are not in the
hall. -/
theorem Step.orderly_among {hall hall' : Hall} {move : Move} (step : hall.Step move hall')
    {guests : List Seat} (orderly : hall.desk.Orderly (hall.seats ++ guests) hall.hands) :
    hall'.desk.Orderly (hall'.seats ++ guests) hall'.hands := by
  cases step with
  | sits _ context step input =>
    rw [desk_sit]
    exact orderly.sitDown (requestOf context step input)
  | @does environment environment' seat stage stage' deed before after hands step =>
    have same : (before ++ ⟨seat, stage'⟩ :: after).map Sitter.seat =
        (before ++ ⟨seat, stage⟩ :: after).map Sitter.seat := by
      simp
    change environment'.desk.Orderly
      ((before ++ ⟨seat, stage'⟩ :: after).map Sitter.seat ++ guests) hands
    rw [same]
    rcases step.desk with ⟨-, kept⟩ | ⟨-, discarded⟩
    · rw [kept]
      exact orderly
    · rw [discarded]
      exact orderly.discard seat.key
  | leaves environment before after hands seat outcome =>
    exact (orderly.perm ((seats_perm before after _).append_right guests)).standUp
  | dropped environment before after hands seat stage =>
    have left := (orderly.perm ((seats_perm before after _).append_right guests)).standUp
    change ((stage.cancel environment).desk.standUp seat).Orderly _ hands
    rw [Stage.desk_cancel]
    exact left
  | takes _ key =>
    change (hall.desk.take key).2.Orderly (hall.seats ++ guests)
      (((hall.desk.take key).1.map OpenRequest.ticket).toList ++ hall.hands)
    rw [Desk.take_eq]
    cases found : hall.desk.find? key with
    | none =>
      rw [Desk.without_of_find? found]
      exact orderly
    | some entry => exact orderly.take found
  | sends environment sitters before after ticket decision =>
    have held : ticket ∈ before ++ ticket :: after := by simp
    have sent := orderly.send held decision
    refine sent.release fun other member => ?_
    rcases List.mem_append.mp member with earlier | later
    · exact List.mem_append_left _ earlier
    · exact List.mem_append_right _ (List.mem_cons_of_mem ticket later)
  | @elsewhere environment environment' sitters hands same later =>
    change environment'.desk.Orderly _ hands
    rw [same]
    exact orderly

/-- Every move leaves the desk orderly. -/
theorem Step.orderly {hall hall' : Hall} {move : Move} (step : hall.Step move hall')
    (orderly : hall.Orderly) : hall'.Orderly := by
  have alone : hall.desk.Orderly (hall.seats ++ []) hall.hands := by rwa [List.append_nil]
  have among := step.orderly_among alone
  rwa [List.append_nil] at among

/-- Whatever has happened since the hall was opened, the desk is orderly. -/
theorem Run.orderly {environment : Environment} {moves : List Move} {hall : Hall}
    (run : (opening environment).Run moves hall) : hall.Orderly := by
  induction run with
  | here => exact .empty
  | next _ step ih => exact step.orderly ih

/-! ## Turns of steps -/

/-- Moves in order, then others. -/
theorem Run.append {first second third : Hall} {moves later : List Move}
    (run : first.Run moves second) (others : second.Run later third) :
    first.Run (moves ++ later) third := by
  induction others with
  | here => rwa [List.append_nil]
  | next _ step ih =>
    rw [← List.append_assoc]
    exact .next ih step

/-- A single move. -/
theorem Step.run {hall hall' : Hall} {move : Move} (step : hall.Step move hall') :
    hall.Run [move] hall' := .next .here step

/-- The steps of the slow motion are moves in the hall. -/
theorem run_of_steps {seat : Seat} {environment environment' : Environment} {stage stage' : Stage}
    {deeds : List Deed} (steps : Stage.Steps seat environment stage deeds environment' stage')
    (before after : List Sitter) (hands : List Ticket) :
    Run ⟨environment, before ++ ⟨seat, stage⟩ :: after, hands⟩ (deeds.map (.does seat))
      ⟨environment', before ++ ⟨seat, stage'⟩ :: after, hands⟩ := by
  induction steps with
  | none => exact .here
  | more step _ ih => exact (Step.does before after hands step).run.append ih

/-- What the hall shows of a step that asks a human, as the engine keeps it between its turns. -/
inductive Shows (seat : Seat) : Activity → List Sitter → Prop where
  | seated {body : Activity} {stage : Stage} (waits : body.At seat stage) :
      Shows seat (.seated seat body) [⟨seat, stage⟩]
  | ended (outcome : Outcome) : Shows seat (.ended outcome) []

/-- What a step has got to is what the hall comes to, when the step leaves its seat as soon as it
has ended. -/
theorem run_of_reached {seat : Seat} {environment : Environment} {stage : Stage}
    {result : Environment × Activity} (reached : Activity.Reached seat environment stage result)
    (before after : List Sitter) (hands : List Ticket) :
    ∃ moves sitters, Run ⟨environment, before ++ ⟨seat, stage⟩ :: after, hands⟩ moves
        ⟨(result.2.hold seat result.1).1, before ++ sitters ++ after, hands⟩ ∧
      Shows seat (result.2.hold seat result.1).2 sitters := by
  obtain ⟨environment', activity⟩ := result
  obtain ⟨deeds, stage', steps, waits⟩ := reached
  have run := run_of_steps steps before after hands
  cases waits with
  | ended outcome =>
    have left := Step.leaves environment' before after hands seat outcome
    exact ⟨_, [], by simpa using! run.append left.run, .ended outcome⟩
  | calling call solo => exact ⟨_, [_], by simpa using! run, .seated (.calling call solo)⟩
  | awaiting deadline solo => exact ⟨_, [_], by simpa using! run, .seated (.awaiting deadline solo)⟩

/-- The first turn of a step that asks a human is a run in the hall. -/
theorem run_of_start (hall : Hall) (context : Context) (step : Workflow.Step) (input : Value) :
    ∃ moves sitters, hall.Run moves
        ⟨((askHuman context step input).start hall.environment).1, sitters ++ hall.sitters,
          hall.hands⟩ ∧
      Shows (hall.seatFor context step input)
        ((askHuman context step input).start hall.environment).2 sitters := by
  have reached := Activity.reached_announcing context step input
    (hall.seatFor context step input)
    (hall.environment.makeRequest (requestOf context step input)).2
  obtain ⟨moves, sitters, run, shows⟩ := run_of_reached reached [] hall.sitters hall.hands
  exact ⟨_, sitters, (Step.sits hall context step input).run.append run, shows⟩

/-- Every later turn of a step that asks a human is a run in the hall. -/
theorem run_of_resume {seat : Seat} {activity : Activity} {sitters : List Sitter}
    (shows : Shows seat activity sitters) (environment : Environment)
    (before after : List Sitter) (hands : List Ticket) :
    ∃ moves sitters', Run ⟨environment, before ++ sitters ++ after, hands⟩ moves
        ⟨(activity.resume environment).1, before ++ sitters' ++ after, hands⟩ ∧
      Shows seat (activity.resume environment).2 sitters' := by
  cases shows with
  | seated waits =>
    rw [List.append_assoc]
    exact run_of_reached (waits.resume environment) before after hands
  | ended outcome => exact ⟨[], [], .here, .ended outcome⟩

/-- Dropping a step that asks a human is a run in the hall. -/
theorem run_of_drop {seat : Seat} {activity : Activity} {sitters : List Sitter}
    (shows : Shows seat activity sitters) (environment : Environment)
    (before after : List Sitter) (hands : List Ticket) :
    ∃ moves, Run ⟨environment, before ++ sitters ++ after, hands⟩ moves
      ⟨activity.drop environment, before ++ after, hands⟩ := by
  cases shows with
  | @seated body stage waits =>
    have gone := (Step.dropped environment before after hands seat stage).run
    have same : (Activity.seated seat body).drop environment =
        (stage.cancel environment).leave seat := by
      cases waits <;> rfl
    rw [same, List.append_assoc]
    exact ⟨_, gone⟩
  | ended outcome => exact ⟨[], by simpa using! Run.here⟩

end Hall

end Workflow
