import Workflow.Proofs.Execution.Dealings
import Workflow.Proofs.Review.Acceptance

/-!
# Announcing a request

A step announces its request in a move of its own, after the one in which it lays the request on the
desk. Others may come in between: somebody who knows the key without having heard of the request may
take it already, and another step may make a request under the same key. As long as nobody clears
the key, the request lies on the desk in the state in which the step announces it, and the record of
publications keeps this state.
-/
namespace Workflow

namespace Hall

variable {context : Context} {step : Workflow.Step} {input : Value} {seat : Seat}
  {start hall hall' : Hall} {moves : List Move} {move : Move}

/-- A request stays on the desk while nobody clears its key. -/
theorem Run.stays (run : start.Run moves hall) (orderly : start.Orderly) {entry : OpenRequest}
    (lies : entry ∈ start.desk.entries)
    (untouched : ∀ move ∈ moves, move.clears? ≠ some entry.key) :
    hall.Orderly ∧ entry ∈ hall.desk.entries := by
  induction run with
  | here => exact ⟨orderly, lies⟩
  | @next moves move hall hall' _ next ih =>
    obtain ⟨earlier, now⟩ := List.forall_mem_append.mp untouched
    obtain ⟨orderly, lies⟩ := ih earlier
    refine ⟨next.orderly orderly, ?_⟩
    by_contra gone
    have clears := (next.changes.lost_iff lies (orderly.entry_issued lies)).mp gone
    exact now move (List.mem_singleton.mpr rfl) clears

/-- The move in which a step announces a request: it is in the stage before, and the request is
published as the desk lies then. -/
theorem Step.announces {request : Request}
    (next : hall.Step (.does seat (.announced request)) hall') :
    (∃ process, ⟨seat, .announcing request process⟩ ∈ hall.sitters) ∧
    hall'.environment = hall.environment.publish (.reviewRequested request) := by
  cases next with
  | does before after hands turn =>
    cases turn with
    | announce => exact ⟨⟨_, List.mem_append_right before List.mem_cons_self⟩, rfl⟩

/-- The request that a step announces is the one that it has made. -/
theorem Course.announced_eq (course : Course context step input seat hall moves)
    (orderly : hall.Orderly) {request : Request} {process : Process}
    (sits : ⟨seat, .announcing request process⟩ ∈ hall.sitters) :
    request = requestOf context step input := by
  cases course with
  | asks sits₀ asking =>
    obtain rfl := orderly.stage_eq sits sits₀
    cases asking with
    | announcing => rfl
  | ends sits₀ ending =>
    obtain rfl := orderly.stage_eq sits sits₀
    cases ending
  | gone absent => exact absurd rfl (absent seat (List.mem_map.mpr ⟨_, sits, rfl⟩))

/-- In every run in which nobody clears the key of a request before it is announced, the step that
has made it announces this request and no other one, in time: it lies on the desk when the step
publishes it, and whoever answers it at that moment is heard. -/
theorem announced_in_time {environment : Environment} {earlier : List Move}
    (opened : (opening environment).Run earlier hall) (context : Context) (step : Workflow.Step)
    (input : Value) {asked told : Hall} (run : (hall.sit context step input).Run moves asked)
    (untouched : ∀ move ∈ moves, move.clears? ≠ some (requestOf context step input).key)
    {request : Request}
    (announces : asked.Step (.does (hall.seatFor context step input) (.announced request)) told) :
    request = requestOf context step input ∧
    told.environment.publications =
      ⟨.reviewRequested request, asked.desk⟩ :: asked.environment.publications ∧
    Publication.Timely ⟨.reviewRequested request, asked.desk⟩ := by
  have begun := (Step.sits hall context step input).orderly opened.orderly
  have kept : .dropped (hall.seatFor context step input) ∉ moves :=
    fun dropped => untouched _ dropped rfl
  obtain ⟨⟨process, sits⟩, published⟩ := announces.announces
  obtain ⟨record, course⟩ := run.course (.begun opened.orderly context step input)
    (.begun hall context step input) kept
  obtain rfl := course.announced_eq record.orderly sits
  have lies : ⟨requestOf context step input, hall.desk.letters.length⟩ ∈
      (hall.sit context step input).desk.entries := by
    rw [desk_sit, Desk.mem_sitDown]
    exact .inr rfl
  obtain ⟨orderly, stays⟩ := run.stays begun lies untouched
  refine ⟨rfl, by rw [published]; rfl, ?_⟩
  rintro other same
  obtain rfl := Event.reviewRequested.inj same
  have found := Desk.Orderly.find? orderly stays
  exact ⟨⟨_, found⟩, fun decision => (Desk.Orderly.submit orderly stays decision).1⟩

end Hall

end Workflow
