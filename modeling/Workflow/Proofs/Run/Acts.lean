import Workflow.Proofs.Run.Rules
import Workflow.Proofs.Run.Twins

/-!
# What an execution does

A run asks humans only under the identifier of its own execution, if custom executors do. What it
does in a turn is told by one relation: `Environment.Acts` says that an execution has exchanged some
seats for others, and that every fact has survived which survives what the rules of the execution
admit. From it follow at once that the requests of others stay where they are, and that another
execution is not touched.
-/
namespace Workflow

/-! ## The rules of an execution -/

/-- The rules of steps that ask humans in one execution. -/
def Rules.within (execution : String) : Rules where
  registered _ := False
  asks key := key.execution = execution
  tolerates _ := True
  allows _ := True
  replaces _ _ := trivial

/-- The rules of an execution rely on no action. -/
theorem Rules.within_free (execution : String) :
    ∀ action, ¬(Rules.within execution).registered action := fun _ impossible => impossible

/-- An executor asks humans only in the execution of its context, if the steps inside its own do. -/
def CustomExecutor.AsksWithin (executor : CustomExecutor) : Prop :=
  ∀ (context : Context) (step : Step) (input : Value) (members : List (Step × Process)),
    (∀ member ∈ members, member.2.Obeys (Rules.within context.execution)) →
      (executor.process context step input members).Obeys (Rules.within context.execution)

/-- As long as custom executors do, every definition obeys the rules of the execution in which it
runs. -/
theorem Definition.obeys_within (definition : Definition) {setup : Setup}
    (custom : ∀ executor ∈ setup.custom, executor.AsksWithin) (execution : String) :
    definition.Obeys (Rules.within execution) setup execution := by
  intro phase step listed context own
  have conduct : setup.Obeys (Rules.within execution) context :=
    fun executor known => own ▸ custom executor known context
  refine Step.process_obeys conduct ?_ step fun inner inside => ?_
  · exact {
      asks := fun _ => own
      warnings := fun _ _ => trivial
      values := fun _ => trivial
      failures := fun _ _ => trivial
      skipped := trivial
      outputs := fun _ => trivial
      subSteps := fun _ _ _ _ => trivial }
  · exact ⟨fun _ _ => trivial, fun _ _ => .inr trivial, fun _ _ => trivial⟩

/-- Steps that run one after another ask in the execution in which each of them asks. -/
theorem dispatchInOrder_obeys {execution : String} (reversed : List Value)
    (members : List (Step × Process))
    (obey : ∀ member ∈ members, member.2.Obeys (Rules.within execution)) :
    (dispatchInOrder reversed members).Obeys (Rules.within execution) := by
  induction members generalizing reversed with
  | nil => exact .settle trivial
  | cons member rest ih =>
    obtain ⟨first, others⟩ := List.forall_mem_cons.mp obey
    refine .together (by simpa using first) fun outcomes _ => ?_
    split
    · exact ih _ others
    · exact .settle trivial

/-- The executors by name ask only in the execution of their context. -/
theorem CustomExecutor.named_asksWithin (beginning : String) (behavior : CustomBehavior) :
    (CustomExecutor.named beginning behavior).AsksWithin := by
  intro context step input members obey
  cases behavior with
  | fail | describe | reply => exact .settle trivial
  | dispatch => exact dispatchInOrder_obeys [] members obey

/-! ## What an execution does -/

/-- The requests of other executions that lie on a desk. -/
def Desk.requestsBeside (desk : Desk) (execution : String) : List OpenRequest :=
  desk.entries.filter (·.key.execution ≠ execution)

/-- Taking requests of an execution off the desk leaves those of others. -/
theorem Desk.requestsBeside_without {desk desk' : Desk} {key : ReviewKey} {execution : String}
    (remaining : desk'.entries = (desk.without key).entries) (own : key.execution = execution) :
    desk'.requestsBeside execution = desk.requestsBeside execution := by
  rw [requestsBeside, requestsBeside, remaining, without, List.filter_filter]
  refine List.filter_congr fun entry _ => ?_
  simp only [Bool.and_eq_left_iff_imp, decide_eq_true_eq, bne_iff_ne]
  rintro differ rfl
  exact differ own

/-- A request of an execution leaves those of others. -/
theorem Desk.requestsBeside_sitDown (desk : Desk) {request : Request} {execution : String}
    (own : request.key.execution = execution) :
    (desk.sitDown request).2.requestsBeside execution = desk.requestsBeside execution := by
  have rest : (desk.without request.key).requestsBeside execution =
      desk.requestsBeside execution := requestsBeside_without rfl own
  rw [← rest]
  simp [requestsBeside, sitDown, List.filter_append, OpenRequest.key, own]

/-- The execution of a run. -/
def Run.execution (run : Run) : String := run.progress.context.execution

/-- An execution has exchanged seats for others: what survives its rules has survived. -/
def Environment.Acts (execution : String) (seats : List Seat) (environment : Environment)
    (seats' : List Seat) (later : Environment) : Prop :=
  ∀ facts : List Seat → Environment → Prop, (Rules.within execution).Keeps facts →
    ∀ others, facts (seats ++ others) environment → facts (seats' ++ others) later

namespace Environment.Acts

variable {execution : String} {seats seats' : List Seat} {environment later : Environment}

/-- As long as nothing happens an execution keeps its seats. -/
theorem refl (execution : String) (seats : List Seat) (environment : Environment) :
    Acts execution seats environment seats environment := fun _ _ _ known => known

/-- Time stands still, and actions are only called. -/
theorem still (acts : Acts execution seats environment seats' later) :
    Process.SameMoment environment later :=
  acts _ (Process.keeps_sameMoment (Rules.within_free execution) environment) []
    (.refl environment)

/-- Another execution is not touched: its own environment stays in agreement with the shared one. -/
theorem mirror (acts : Acts execution seats environment seats' later) {other : String}
    (differ : execution ≠ other) {pairs : List (Seat × Seat)} {others : List Seat}
    {own : Environment} (mirror : Mirror other pairs (seats ++ others) environment own) :
    Mirror other pairs (seats' ++ others) later own := by
  refine acts (fun held after => Mirror other pairs held after own) ?_ others mirror
  have theirs : ∀ {key : ReviewKey}, key.execution = execution → key.execution ≠ other :=
    fun same => same ▸ differ
  exact {
    order := fun mirror same => { mirror with desk := mirror.desk.perm (.refl pairs) same }
    quiet := fun mirror quiet => mirror.quiet quiet (.refl own)
    warn := fun _ mirror _ => ⟨mirror.now, mirror.actions, mirror.steady, mirror.desk⟩
    found := fun _ impossible => impossible.elim
    sitDown := fun request mirror asks =>
      { mirror with desk := mirror.desk.sitDown_stranger request (theirs asks) }
    discard := fun key mirror asks =>
      { mirror with desk := mirror.desk.discard_stranger (theirs asks) }
    leave := fun mirror _ => { mirror with desk := mirror.desk.standUp_stranger } }

/-- The requests of other executions stay where they are. -/
theorem bystanders (acts : Acts execution seats environment seats' later) :
    later.desk.requestsBeside execution = environment.desk.requestsBeside execution := by
  refine acts (fun _ after =>
    after.desk.requestsBeside execution = environment.desk.requestsBeside execution) ?_ [] rfl
  exact {
    order := fun same _ => same
    quiet := fun same quiet => quiet.desk ▸ same
    warn := fun _ same _ => same
    found := fun _ impossible => impossible.elim
    sitDown := fun request same asks => by
      rw [← same]
      exact Desk.requestsBeside_sitDown _ asks
    discard := fun key same asks => by
      rw [← same]
      exact Desk.requestsBeside_without (Desk.entries_discard _ key) asks
    leave := fun same asks => by
      rw [← same]
      exact Desk.requestsBeside_without (Desk.entries_standUp _ _) asks }

end Environment.Acts

/-! ## Runs that act -/

namespace Run

variable {setup : Setup} {execution : String}

/-- A run that begins acts in its execution, and it obeys the rules afterwards. -/
theorem start_acts (custom : setup.custom = []) (definition : Definition) (execution : String)
    (trigger : Value) (environment : Environment) :
    (start setup definition execution trigger environment).2.Obeys (Rules.within execution)
        definition execution ∧
      environment.Acts execution [] (start setup definition execution trigger environment).2.seats
        (start setup definition execution trigger environment).1 := by
  have conduct : definition.Obeys (Rules.within execution) setup execution :=
    definition.obeys_within (by simp [custom]) execution
  refine ⟨(start_obeys (Rules.keeps_true (Rules.within_free execution)) (fun _ _ _ _ => trivial)
    conduct trigger environment [] trivial).1, fun facts keeps others known => ?_⟩
  exact (start_obeys keeps (fun _ _ _ _ => trivial) conduct trigger environment others known).2

/-- A run that goes on acts in its execution, and it obeys the rules afterwards. -/
theorem resume_acts (custom : setup.custom = []) {run : Run} {definition : Definition}
    (obeys : (RunState.waiting run).Obeys (Rules.within execution) definition execution)
    (environment : Environment) :
    (run.resume setup environment).2.Obeys (Rules.within execution) definition execution ∧
      environment.Acts execution run.activity.seats (run.resume setup environment).2.seats
        (run.resume setup environment).1 := by
  have conduct : definition.Obeys (Rules.within execution) setup execution :=
    definition.obeys_within (by simp [custom]) execution
  refine ⟨(resume_obeys (Rules.keeps_true (Rules.within_free execution)) (fun _ _ _ _ => trivial)
    conduct environment obeys [] trivial).1, fun facts keeps others known => ?_⟩
  exact (resume_obeys keeps (fun _ _ _ _ => trivial) conduct environment obeys others known).2

/-- A run that is dropped leaves its seats. -/
theorem drop_acts {run : Run} {definition : Definition}
    (obeys : (RunState.waiting run).Obeys (Rules.within execution) definition execution)
    (environment : Environment) :
    environment.Acts execution run.activity.seats [] (run.drop environment) := by
  intro facts keeps others known
  cases obeys with
  | waiting _ _ inside _ => exact inside.drop keeps environment others known

end Run

end Workflow
