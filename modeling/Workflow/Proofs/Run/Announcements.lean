import Workflow.Proofs.Execution.Dealings
import Workflow.Proofs.Run.Rules

/-!
# What a run announces

A run tells that it has started, makes its requests, and tells that it has finished in the turn in
which it is over. What is left of it after a turn decides whether it has told so: a run that waits
has not, and one that is over has nothing more to do.
-/
namespace Workflow

/-- What a run tells at the end of a turn: with which status it has finished, if it is over. -/
def RunState.closing : RunState → List Dealing
  | .waiting _ => []
  | .over report =>
    [.tells (.runFinished report.execution report.workflow report.status)]

/-- No request is made when a run is over. -/
theorem RunState.requests_closing (state : RunState) : Dealing.requests state.closing = [] := by
  cases state <;> rfl

/-- What a run tells at the end of a turn has nothing to do with requests. -/
theorem RunState.aside_closing (state : RunState) :
    ∀ dealing ∈ state.closing, dealing.Aside := by
  obtain run | report := state
  · exact fun _ member => absurd member List.not_mem_nil
  · exact List.forall_mem_singleton.mpr trivial

/-- Where the steps of a phase have got to, this has been done. -/
def PhaseState.progress : PhaseState → Progress
  | .waiting progress _ _ _ => progress
  | .over progress => progress

/-- A step obeys rules in every context of an execution. -/
def Step.Conducts (step : Step) (rules : Rules) (setup : Setup) (execution : String) : Prop :=
  ∀ context, context.execution = execution → (step.process setup context).Obeys rules

namespace Run

/-- What is done consists of an opening, of dealings that rules admit, and of what is told when the
run is over. -/
def Deals (rules : Rules) (opening : List Dealing) (environment : Environment)
    (act : Environment → Environment × RunState) : Prop :=
  ∃ dealings, environment.Deals act (opening ++ dealings ++ (act environment).2.closing) ∧
    ∀ dealing ∈ dealings, rules.Admits dealing

variable {rules : Rules} {environment : Environment} {act : Environment → Environment × RunState}

/-- A run that deals by rules deals. -/
theorem Deals.exists_deals {opening : List Dealing} (deals : Deals rules opening environment act) :
    ∃ dealings, environment.Deals act dealings := by
  obtain ⟨dealings, deals, -⟩ := deals
  exact ⟨_, deals⟩

/-- What does the same deals by the same rules. -/
theorem Deals.congr (act' : Environment → Environment × RunState)
    (same : ∀ channel, act { environment with channel } = act' { environment with channel })
    (deals : Deals rules [] environment act') : Deals rules [] environment act := by
  obtain ⟨dealings, deals, admitted⟩ := deals
  have here : act environment = act' environment := same environment.channel
  exact ⟨dealings, here ▸ deals.congr same, admitted⟩

/-- What the steps of a run do comes before what follows. -/
theorem Deals.bind {first : Environment → Environment × A}
    (next : Environment × A → Environment × RunState) (begins : environment.DealsBy rules first)
    (goesOn : Deals rules [] (first environment).1
      fun later => next (later, (first environment).2)) :
    Deals rules [] environment fun environment => next (first environment) := by
  obtain ⟨dealings, begins, admitted⟩ := begins
  obtain ⟨others, goesOn, alsoAdmitted⟩ := goesOn
  refine ⟨dealings ++ others, ?_, List.forall_mem_append.mpr ⟨admitted, alsoAdmitted⟩⟩
  have both := begins.bind next goesOn
  simpa using both

/-- A run that waits has only dealt. -/
theorem Deals.waiting (run : Run) :
    Deals rules [] environment fun environment => (environment, .waiting run) :=
  ⟨[], .quiet ⟨rfl, rfl⟩ fun _ => rfl, by simp⟩

/-- What follows a step of a phase: the later ones if it has not failed, and nothing as long as it
waits. -/
def afterStep (setup : Setup) (phase : Phase) (progress : Progress) (step : Step)
    (rest : List Step) (environment : Environment) : Activity → Environment × PhaseState
  | .ended (.ok output) =>
    startSteps setup phase environment (progress.record phase step (.ok output)) rest
  | .ended (.error error) => (environment, .over (progress.record phase step (.error error)))
  | activity => (environment, .waiting progress step activity rest)

/-- The steps of a phase begin with the first one, and what follows it depends on where it has got
to. -/
theorem startSteps_cons (setup : Setup) (phase : Phase) (environment : Environment)
    (progress : Progress) (step : Step) (rest : List Step) :
    startSteps setup phase environment progress (step :: rest) =
      let result := (step.process setup progress.context).start environment
      afterStep setup phase progress step rest result.1 result.2 := by
  rw [startSteps]
  generalize (step.process setup progress.context).start environment = result
  obtain ⟨environment, activity⟩ := result
  cases activity with
  | ended outcome => cases outcome <;> rfl
  | calling | seated | awaiting | together => rfl

/-- What follows a phase: the later ones, or nothing as long as a step waits. -/
def afterPhase (setup : Setup) (definition : Definition) (phase : Phase) (later : List Phase)
    (environment : Environment) : PhaseState → Environment × RunState
  | .over progress => startPhases setup definition environment progress later
  | .waiting progress step activity rest =>
    (environment, .waiting { definition, progress, phase, step, activity, rest, later })

/-- Steps run in the execution in which they begin. -/
theorem execution_startSteps (setup : Setup) (phase : Phase) (environment : Environment)
    (progress : Progress) (steps : List Step) :
    (startSteps setup phase environment progress steps).2.progress.context.execution =
      progress.context.execution := by
  induction steps generalizing environment progress with
  | nil => rfl
  | cons step rest ih =>
    rw [startSteps]
    generalize (step.process setup progress.context).start environment = result
    obtain ⟨environment, activity⟩ := result
    cases activity with
    | ended outcome =>
      have recorded := progress.execution_record phase step outcome
      cases outcome with
      | ok output => exact (ih _ _).trans recorded
      | error error => exact recorded
    | calling | seated | awaiting | together => rfl

/-- The phases begin with the steps of the first one, and what follows depends on where they have
got to. -/
theorem startPhases_cons (setup : Setup) (definition : Definition) (environment : Environment)
    (progress : Progress) (phase : Phase) (later : List Phase) :
    startPhases setup definition environment progress (phase :: later) =
      let result := startSteps setup phase environment progress (progress.stepsOf definition phase)
      afterPhase setup definition phase later result.1 result.2 := by
  rw [startPhases]
  generalize startSteps setup phase environment progress (progress.stepsOf definition phase) =
    result
  obtain ⟨environment, state⟩ := result
  cases state <;> rfl

/-- When a step has succeeded the run goes on with the rest of its phase, then with the later ones.
-/
theorem goOn_ok (setup : Setup) (run : Run) (environment : Environment) (output : Option Output) :
    run.goOn setup environment (.ended (.ok output)) =
      let result := startSteps setup run.phase environment
        (run.progress.record run.phase run.step (.ok output)) run.rest
      afterPhase setup run.definition run.phase run.later result.1 result.2 := by
  rw [goOn]
  dsimp only
  generalize startSteps setup run.phase environment _ run.rest = result
  obtain ⟨environment, state⟩ := result
  cases state <;> rfl

variable {setup : Setup} {definition : Definition} {execution : String}
  (free : ∀ action, ¬rules.registered action)

/-- A run that is over tells so. -/
theorem finish_deals (environment : Environment) (progress : Progress) :
    Deals rules [] environment fun environment => finish environment progress := by
  have prompt : Dealing.Prompt (finish environment progress).2.closing :=
    .of_aside (RunState.aside_closing _)
  refine ⟨[], ⟨⟨?_, ?_⟩, prompt, fun channel => ?_⟩, by simp⟩
  all_goals
    unfold finish
    dsimp only
    split <;> rfl

include free

/-- Steps deal until one waits or the phase is over. -/
theorem startSteps_deals (phase : Phase) {steps : List Step}
    (conduct : ∀ step ∈ steps, step.Conducts rules setup execution) (environment : Environment)
    {progress : Progress} (own : progress.context.execution = execution) :
    environment.DealsBy rules
      fun environment => startSteps setup phase environment progress steps := by
  induction steps generalizing environment progress with
  | nil => exact .quiet ⟨rfl, rfl⟩ fun _ => rfl
  | cons step rest ih =>
    obtain ⟨conducts, others⟩ := List.forall_mem_cons.mp conduct
    refine .congr _ (fun channel => startSteps_cons ..)
      (((conducts progress.context own).deals free environment).bind
        (fun result => afterStep setup phase progress step rest result.1 result.2) ?_)
    generalize (step.process setup progress.context).start environment = result
    obtain ⟨environment, activity⟩ := result
    cases activity with
    | ended outcome =>
      cases outcome with
      | ok output => exact ih others environment ((progress.execution_record ..).trans own)
      | error error => exact .quiet ⟨rfl, rfl⟩ fun _ => rfl
    | calling | seated | awaiting | together => exact .quiet ⟨rfl, rfl⟩ fun _ => rfl

omit free in
/-- What follows a phase is dealt with as the later phases are. -/
theorem afterPhase_deals {phase : Phase} {later : List Phase} {state : PhaseState}
    (own : state.progress.context.execution = execution)
    (goesOn : ∀ progress : Progress, progress.context.execution = execution → ∀ environment,
      Deals rules [] environment
        fun environment => startPhases setup definition environment progress later)
    (environment : Environment) : Deals rules [] environment
      fun environment => afterPhase setup definition phase later environment state := by
  obtain ⟨progress, step, activity, rest⟩ | progress := state
  · exact .waiting _
  · exact goesOn progress own environment

/-- Phases deal until a step waits or the run is over. -/
theorem startPhases_deals (conduct : definition.Obeys rules setup execution) (phases : List Phase)
    (environment : Environment) {progress : Progress}
    (own : progress.context.execution = execution) :
    Deals rules [] environment
      fun environment => startPhases setup definition environment progress phases := by
  induction phases generalizing environment progress with
  | nil => exact finish_deals environment progress
  | cons phase later ih =>
    have steps := startSteps_deals free phase
      (fun step among => conduct phase step (progress.stepsOf_listed definition phase among))
      environment own
    exact .congr _ (fun channel => startPhases_cons ..) (.bind
      (fun result => afterPhase setup definition phase later result.1 result.2) steps
      (afterPhase_deals ((execution_startSteps ..).trans own)
        (fun progress own environment => ih environment own) _))

/-- A run tells that it starts, then it deals. -/
theorem start_deals (conduct : definition.Obeys rules setup execution) (trigger : Value)
    (environment : Environment) :
    Deals rules [.tells (.runStarted execution definition.name)] environment
      fun environment => start setup definition execution trigger environment := by
  let context := Context.start definition.name execution trigger
  have tells : environment.Deals (fun environment =>
      (environment.publish (.runStarted execution definition.name), ()))
      [.tells (.runStarted execution definition.name)] :=
    ⟨⟨rfl, rfl⟩, .one trivial, fun _ => rfl⟩
  have own : (Progress.start context).context.execution = execution := rfl
  obtain ⟨dealings, deals, admitted⟩ := startPhases_deals free conduct Phase.all
    (environment.publish (.runStarted execution definition.name)) own
  have both := tells.bind
    (fun result => startPhases setup definition result.1 (.start context) Phase.all) deals
  exact ⟨dealings, both, admitted⟩

/-- A run that goes on deals, and tells that it has finished when it is over. -/
theorem resume_deals {run : Run} (own : run.progress.context.execution = execution)
    (conduct : run.definition.Obeys rules setup execution)
    (remain : ∀ step ∈ run.rest, step.Conducts rules setup execution)
    (obeys : run.activity.Obeys rules) (environment : Environment) :
    Deals rules [] environment fun environment => run.resume setup environment := by
  have later : ∀ progress : Progress, progress.context.execution = execution → ∀ environment,
      Deals rules [] environment
        fun environment => startPhases setup run.definition environment progress run.later :=
    fun progress own environment => startPhases_deals free conduct run.later environment own
  refine .bind (fun result => run.goOn setup result.1 result.2)
    (obeys.deals_resume free environment) ?_
  generalize run.activity.resume environment = result
  obtain ⟨environment, activity⟩ := result
  cases activity with
  | ended outcome =>
    have recorded : ∀ outcome,
        (run.progress.record run.phase run.step outcome).context.execution = execution :=
      fun outcome => (run.progress.execution_record ..).trans own
    cases outcome with
    | ok output =>
      exact .congr _ (fun channel => goOn_ok ..) (.bind
        (fun result => afterPhase setup run.definition run.phase run.later result.1 result.2)
        (startSteps_deals free run.phase remain environment (recorded _))
        (afterPhase_deals ((execution_startSteps ..).trans (recorded _)) later _))
    | error error => exact later _ (recorded _) environment
  | calling call next => exact .waiting { run with activity := .calling call next }
  | seated seat body => exact .waiting { run with activity := .seated seat body }
  | awaiting seat deadline next =>
    exact .waiting { run with activity := .awaiting seat deadline next }
  | together members next => exact .waiting { run with activity := .together members next }

end Run

end Workflow
