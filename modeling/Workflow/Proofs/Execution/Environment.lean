import Workflow.Proofs.Review.Desk
import Workflow.Execution.Activity

/-!
# What steps do to their environment

The desk is changed only by requests, by steps that leave their seats and by limits that are over.
Warnings, alarms, calls and their records leave it as it is.
-/
namespace Workflow

namespace Environment

variable (environment : Environment)

/-- An environment in which nothing has happened. -/
def idle : Environment := ⟨0, 0, .empty, .empty, .ofBuffer 1, [], [], []⟩

/-! ## Records, alarms and calls -/

/-- A warning leaves the desk as it is. -/
@[simp] theorem desk_warn (warning : Warning) : (environment.warn warning).desk = environment.desk :=
  rfl

/-- A record of a call leaves the desk as it is. -/
@[simp] theorem desk_record (recordedAs : Option String) (event : CallEvent) :
    (environment.record recordedAs event).desk = environment.desk := by
  cases recordedAs <;> rfl

/-- A limit leaves the desk as it is. -/
@[simp] theorem desk_setLimit (limit : Option Nat) :
    (environment.setLimit limit).2.desk = environment.desk := by
  cases limit <;> rfl

/-- There is a deadline exactly if there is a limit. -/
theorem setLimit_isSome (limit : Option Nat) :
    (environment.setLimit limit).1.isSome = limit.isSome := by
  cases limit <;> rfl

/-- A call that begins leaves the desk as it is. -/
@[simp] theorem desk_beginCall (registration : Registration) (input : Value)
    (limit : Option Nat) : (environment.beginCall registration input limit).2.desk =
      environment.desk := by
  unfold beginCall
  simp only [desk_setLimit]
  split <;> simp [setAlarm]

/-- A call that ends leaves the desk as it is. -/
@[simp] theorem desk_recordEnd (call : Call) (callEnd : CallEnd) :
    (environment.recordEnd call callEnd).desk = environment.desk := by
  unfold recordEnd
  split <;> exact environment.desk_record _ _

/-! ## The record of publications -/

/-- A record of a call publishes nothing. -/
@[simp] theorem publications_record (recordedAs : Option String) (event : CallEvent) :
    (environment.record recordedAs event).publications = environment.publications := by
  cases recordedAs <;> rfl

/-- A limit that is set publishes nothing. -/
@[simp] theorem publications_setLimit (limit : Option Nat) :
    (environment.setLimit limit).2.publications = environment.publications := by
  cases limit <;> rfl

/-- A call that begins publishes nothing. -/
@[simp] theorem publications_beginCall (registration : Registration) (input : Value)
    (limit : Option Nat) : (environment.beginCall registration input limit).2.publications =
      environment.publications := by
  unfold beginCall
  simp only [publications_setLimit]
  split <;> simp [setAlarm]

/-- A call that ends publishes nothing. -/
@[simp] theorem publications_recordEnd (call : Call) (callEnd : CallEnd) :
    (environment.recordEnd call callEnd).publications = environment.publications := by
  unfold recordEnd
  split <;> exact environment.publications_record _ _

/-- A request that is laid on the desk is not published yet. -/
@[simp] theorem publications_makeRequest (request : Request) :
    (environment.makeRequest request).2.publications = environment.publications := by
  unfold makeRequest
  dsimp only
  split <;> rfl

/-! ## The desk -/

/-- A request that is made is laid on the desk. -/
@[simp] theorem desk_makeRequest (request : Request) :
    (environment.makeRequest request).2.desk = (environment.desk.sitDown request).2 := by
  unfold makeRequest
  dsimp only
  split <;> rfl

/-- To leave is to stand up from the desk. -/
@[simp] theorem desk_leave (seat : Seat) :
    (environment.leave seat).desk = environment.desk.standUp seat := rfl

/-- A limit that is over is a decision if the request is on the desk. -/
theorem expire_of_find? {environment : Environment} {seat : Seat} {entry : OpenRequest}
    (found : environment.desk.find? seat.key = some entry) : environment.expire seat =
      (.received (some .timeout),
        { environment with desk := environment.desk.discard seat.key }) := by
  rw [expire, found]

/-- A limit that is over counts no longer if the request has been taken. -/
theorem expire_of_missing {environment : Environment} {seat : Seat}
    (missing : environment.desk.find? seat.key = none) :
    environment.expire seat = (.waiting none, environment) := by
  rw [expire, missing]

end Environment

end Workflow
