import Workflow.Proofs.Review.View
import Workflow.Proofs.Run.Separation

/-!
# A run among others

A run makes its moves while other runs make theirs at the same desk and decisions are handed in, in
whatever order. No other run in progress has the execution of the run.

Where the groups of an accepted definition nest apart, nobody replaces a request of the run, and no
step of the run is aborted. The names of steps are distinct within each list only: without the
condition two steps with one name, in two groups of a batch, have one key.
-/
namespace Workflow

/-- A run of an execution whose steps keep apart and are attended to. -/
inductive Course.Sound (setup : Setup) (execution : String) (desk : Desk) : Course → Prop where
  | between {progress : Progress} (phases : List Phase)
      (own : progress.context.execution = execution) :
      Sound setup execution desk (.between progress phases)
  | before {progress : Progress} {steps : List Workflow.Step} (phase : Phase) (later : List Phase)
      (own : progress.context.execution = execution)
      (asks : ∀ step ∈ steps, step.AsksApart setup) :
      Sound setup execution desk (.before progress phase steps later)
  /-- A step is in progress. -/
  | during {progress : Progress} {motion : Motion} {rest : List Workflow.Step} (phase : Phase)
      (step : Workflow.Step)
      (later : List Phase) (names : List String) (own : progress.context.execution = execution)
      (asks : ∀ step ∈ rest, step.AsksApart setup) (sound : motion.Sound execution desk names) :
      Sound setup execution desk (.during progress phase step motion rest later)
  | ended (report : Report) : Sound setup execution desk (.ended report)

namespace Course

variable {setup : Setup} {definition : Definition} {execution : String} {desk desk' : Desk}
  {others : List Seat} {hands : List Ticket}

/-- What keeps the boxes of all seats live keeps the steps of a run attended to. -/
theorem Sound.frame {course : Course} (sound : course.Sound setup execution desk)
    (kept : ∀ seat ∈ course.seats, desk.Live seat.ticket → desk'.Live seat.ticket) :
    course.Sound setup execution desk' := by
  cases sound with
  | between phases own => exact .between phases own
  | before phase later own asks => exact .before phase later own asks
  | during phase step later names own asks sound =>
    exact .during phase step later names own asks (sound.frame kept)
  | ended report => exact .ended report

/-- All seats that a run holds have keys of its execution. -/
theorem Sound.own {course : Course} (sound : course.Sound setup execution desk) :
    ∀ seat ∈ course.seats, seat.key.execution = execution := by
  cases sound with
  | between | before | ended => simp [seats]
  | during phase step later names own asks sound => exact fun seat held => (sound.own seat held).1

/-- A run that is over leaves the desk as it is. -/
theorem desk_finish (environment : Environment) (progress : Progress) :
    (Run.finish environment progress).1.desk = environment.desk := by
  rw [Run.finish]
  cases progress.report.error <;> rfl

/-- Every move of a run keeps its steps apart and attended to, and spoils nothing. -/
theorem Step.kept {before after : Environment × Course} {move : Move}
    (step : Step setup definition before move after) (asks : definition.AsksApart setup)
    (sound : before.2.Sound setup execution before.1.desk)
    (orderly : before.1.desk.Orderly (before.2.seats ++ others) hands)
    (foreign : ∀ seat ∈ others, seat.key.execution ≠ execution) :
    after.2.Sound setup execution after.1.desk ∧
      after.1.desk.Orderly (after.2.seats ++ others) hands ∧ ¬move.Spoils execution := by
  cases step with
  | opens environment progress phase later =>
    cases sound with
    | between _ own =>
      refine ⟨.before phase later own fun step member => ?_, orderly, fun spoils => spoils⟩
      exact asks step (progress.stepsOf_subset definition phase member)
  | begins environment progress phase step rest later =>
    cases sound with
    | before _ _ own asks =>
      have first := asks step List.mem_cons_self progress.context
      rw [own] at first
      refine ⟨.during phase step later step.reviews own (fun step member => ?_) (.going first),
        orderly, fun spoils => spoils⟩
      exact asks step (List.mem_cons_of_mem _ member)
  | moves progress phase step rest later inside =>
    cases sound with
    | during _ _ _ names own asks sound =>
      have kept := inside.kept sound orderly fun seat held => .inl (foreign seat held)
      exact ⟨.during phase step later names own asks kept.sound, kept.orderly, kept.harmless⟩
  | succeeds environment progress phase step output rest later =>
    cases sound with
    | during _ _ _ names own asks sound =>
      refine ⟨.before phase later ?_ asks, orderly, fun spoils => spoils⟩
      rw [Progress.execution_record, own]
  | fails environment progress phase step error rest later =>
    cases sound with
    | during _ _ _ names own asks sound =>
      refine ⟨.between later ?_, orderly, fun spoils => spoils⟩
      rw [Progress.execution_record, own]
  | closes environment progress phase later =>
    cases sound with
    | before _ _ own asks => exact ⟨.between later own, orderly, fun spoils => spoils⟩
  | finishes environment progress =>
    refine ⟨.ended _, ?_, fun spoils => spoils⟩
    rw [desk_finish]
    exact orderly

end Course

/-! ## The run among others -/

/-- A run and the others at the desk. -/
structure Scene where
  /-- The steps of other runs, and those who hand in decisions, also about steps of the run. -/
  hall : Hall
  course : Course

namespace Scene

/-- One move of the run or of the others, who make no requests of its execution. -/
inductive Step (setup : Setup) (definition : Definition) (execution : String) :
    Scene → Move → Scene → Prop where
  | own {environment' : Environment} {course course' : Course} {move : Move} (hall : Hall)
      (step : Course.Step setup definition (hall.environment, course) move (environment', course')) :
      Step setup definition execution ⟨hall, course⟩ move
        ⟨{ hall with environment := environment' }, course'⟩
  /-- One of the others moves. -/
  | other {hall hall' : Hall} {move : Move} (course : Course) (step : hall.Step move hall')
      (elsewhere : ∀ seat, move = .sits seat → seat.key.execution ≠ execution) :
      Step setup definition execution ⟨hall, course⟩ move ⟨hall', course⟩

variable {setup : Setup} {definition : Definition} {execution : String} {scene scene' : Scene}
  {move : Move}

/-! ## Turns of the run -/

/-- The moves of a run are moves in the scene. -/
theorem moves_of_course (hall : Hall) {environment' : Environment} {course course' : Course}
    {moves : List Move}
    (taken : Moves (Course.Step setup definition) (hall.environment, course) moves
      (environment', course')) :
    Moves (Step setup definition execution) ⟨hall, course⟩ moves
      ⟨{ hall with environment := environment' }, course'⟩ :=
  taken.within (fun state => Scene.mk { hall with environment := state.1 } state.2)
    (fun {first _ _} step => .own { hall with environment := first.1 } step)

/-- The first turn of a run on the engine is a sequence of moves in the scene. -/
theorem run_of_start (asks : definition.AsksApart setup) (hall : Hall) (execution : String)
    (trigger : Value) :
    ∃ moves course, Moves (Step setup definition execution)
        ⟨hall, .opening definition execution trigger⟩ moves
        ⟨{ hall with
          environment := (Run.start setup definition execution trigger hall.environment).1 },
          course⟩ ∧
      (Run.start setup definition execution trigger hall.environment).2.Shows setup definition
        execution course := by
  obtain ⟨environment, sitters, hands⟩ := hall
  have announced : Hall.Step ⟨environment, sitters, hands⟩ .elsewhere
      ⟨environment.publish (.runStarted execution definition.name), sitters, hands⟩ :=
    .elsewhere sitters hands rfl (Nat.le_refl _)
  obtain ⟨moves, course, taken, shows⟩ := Course.reaches_start asks execution trigger environment
  have first : Step setup definition execution _ _ _ :=
    .other (.opening definition execution trigger) announced (by simp)
  exact ⟨_, course, .more first (moves_of_course _ taken), shows⟩

/-- Every later turn of a run on the engine is a sequence of moves in the scene. -/
theorem run_of_resume (asks : definition.AsksApart setup) {run : Run} {course : Course}
    (shows : (RunState.waiting run).Shows setup definition execution course) (hall : Hall) :
    ∃ moves course', Moves (Step setup definition execution) ⟨hall, course⟩ moves
        ⟨{ hall with environment := (run.resume setup hall.environment).1 }, course'⟩ ∧
      (run.resume setup hall.environment).2.Shows setup definition execution course' := by
  obtain ⟨moves, course', taken, shows'⟩ := Course.reaches_resume asks shows hall.environment
  exact ⟨moves, course', moves_of_course hall taken, shows'⟩

/-! ## What every move keeps -/

/-- What holds at any time while the run is in progress. -/
structure Sound (setup : Setup) (execution : String) (scene : Scene) : Prop where
  course : scene.course.Sound setup execution scene.hall.desk
  /-- The desk is as the run and the others left it. -/
  orderly : scene.hall.desk.Orderly (scene.hall.seats ++ scene.course.seats) scene.hall.hands
  /-- The others have no requests of the execution. -/
  foreign : ∀ seat ∈ scene.hall.seats, seat.key.execution ≠ execution

/-- Every move keeps the steps of the run apart and attended to, and spoils nothing. -/
theorem Step.kept (step : Step setup definition execution scene move scene')
    (asks : definition.AsksApart setup) (sound : scene.Sound setup execution) :
    scene'.Sound setup execution ∧ ¬move.Spoils execution := by
  cases step with
  | own hall step =>
    obtain ⟨course, orderly, harmless⟩ := step.kept asks sound.course
      (sound.orderly.perm List.perm_append_comm) sound.foreign
    exact ⟨⟨course, orderly.perm List.perm_append_comm, sound.foreign⟩, harmless⟩
  | @other hall hall' _ course step elsewhere =>
    have own := sound.course.own
    have live : ∀ seat ∈ course.seats, hall.desk.Live seat.ticket → hall'.desk.Live seat.ticket := by
      intro seat held
      refine step.live_among sound.orderly held fun other otherHeld same => ?_
      exact sound.foreign other otherHeld (same ▸ own seat held)
    refine ⟨⟨sound.course.frame live, step.orderly_among sound.orderly, ?_⟩, ?_⟩
    · intro seat held
      rcases step.seats held with before | ⟨new, -⟩
      · exact sound.foreign seat before
      · exact elsewhere seat new
    · intro spoils
      cases step with
      | sits => exact elsewhere _ rfl spoils.1
      | leaves environment before after hands seat outcome =>
        exact sound.foreign seat (by simp [Hall.seats]) spoils.1
      | does | dropped | takes | sends | elsewhere => exact spoils

/-- Nobody replaces a request of a run of an accepted definition whose groups nest apart, and none
of its steps is aborted, in whatever order steps and decisions happen. -/
theorem nothing_spoiled {text : String} {setup : Setup} {definition : Definition}
    {environment : Environment} {execution : String} {earlier moves : List Move} {hall : Hall}
    {scene : Scene} (accepted : Definition.ofText text = .ok definition)
    (apart : definition.NestsApart setup.maxParallelSteps)
    (custom : ∀ executor ∈ setup.custom, executor.TakesTurns)
    (others : (Hall.opening environment).Run earlier hall)
    (ownExecution : ∀ seat ∈ hall.seats, seat.key.execution ≠ execution) (trigger : Value)
    (run : Moves (Step setup definition execution)
      ⟨hall, .opening definition execution trigger⟩ moves scene) :
    ∀ move ∈ moves, ¬move.Spoils execution := by
  have asks := apart.asksApart (Definition.ofText_accepted accepted) custom
  have begin' : Sound setup execution ⟨hall, .opening definition execution trigger⟩ := by
    refine ⟨.between _ rfl, ?_, ownExecution⟩
    change hall.desk.Orderly (hall.seats ++ []) hall.hands
    rw [List.append_nil]
    exact others.orderly
  generalize Scene.mk hall (.opening definition execution trigger) = start at run begin'
  induction run with
  | none => simp
  | more step _ ih =>
    obtain ⟨sound, harmless⟩ := step.kept asks begin'
    intro move member
    rcases List.mem_cons.mp member with rfl | later
    · exact harmless
    · exact ih sound move later

/-! ## A group beside a human step -/

/-- A setup without custom executors, with room for ten steps at once. -/
def plainSetup : Setup := ⟨10, none, []⟩

/-- A group that always runs. -/
def plainGroup (name : String) (steps : List Workflow.Step) : Workflow.Step :=
  ⟨name, .parallel, none, none, none, none, none, none, none, steps⟩

/-- A group with one human step inside it, beside another human step. -/
def besides (first second : String) : Workflow.Step :=
  plainGroup "both" [plainGroup "left" [Hall.plainReview first], Hall.plainReview second]

/-- A workflow of this one step. -/
def nested (first second : String) : Definition where
  name := "nested"
  description := none
  version := none
  trigger := .manual
  steps := [besides first second]
  onComplete := []
  onError := []

/-- The text of the workflow. -/
def nestedText (first second : String) : String :=
  "[workflow]\nname = \"nested\"\n[[steps]]\nname = \"both\"\ntype = \"parallel\"\n" ++
    "[[steps.steps]]\nname = \"left\"\ntype = \"parallel\"\n" ++
    "[[steps.steps.steps]]\nname = \"" ++ first ++ "\"\ntype = \"human_in_loop\"\n" ++
    "[[steps.steps]]\nname = \"" ++ second ++ "\"\ntype = \"human_in_loop\"\n"

/-- The members of a group that fit into one batch go on side by side. -/
theorem plainGroup_process (context : Context) (name : String) (steps : List Workflow.Step)
    (some : steps ≠ []) (fits : steps.length ≤ 10) :
    ∃ next, (plainGroup name steps).process plainSetup context =
      .together (steps.map fun step => step.process plainSetup context) next := by
  have members := processesOf_eq plainSetup context steps
  have cut : batches 10 (processesOf plainSetup context steps) =
      [processesOf plainSetup context steps] := by
    apply batches_of_length_le
    · simpa [members] using some
    · simpa [members] using fits
  have group : (plainGroup name steps).process plainSetup context =
      runGroup 10 (plainGroup name steps) (processesOf plainSetup context steps) := rfl
  have full : ¬(processesOf plainSetup context steps).isEmpty := by simpa [members] using some
  rw [group, runGroup, if_neg full, cut, runBatches]
  simp only [members, List.map_map]
  exact ⟨_, rfl⟩

/-- The request that a human step makes. -/
def plainRequest (name : String) : Request :=
  requestOf (.start "nested" "run" .null) (Hall.plainReview name) .null

/-- The environment after the first of two requests. -/
def afterFirst (first : String) : Environment :=
  ((Hall.opening .idle).environment.makeRequest (plainRequest first)).2

/-- The seat for the second of two requests. -/
def secondSeat (first second : String) : Seat :=
  ((afterFirst first).makeRequest (plainRequest second)).1

/-- Both human steps make their requests, the first one before the second one. -/
theorem besides_moves (first second : String) :
    ∃ motion, Moves Motion.Step
      ((Hall.opening .idle).environment,
        .going ((besides first second).process plainSetup (.start "nested" "run" .null)))
      [.elsewhere, .elsewhere, .sits ⟨⟨"run", first⟩, 0, none⟩, .sits (secondSeat first second)]
      (((afterFirst first).makeRequest (plainRequest second)).2, motion) := by
  let context := Context.start "nested" "run" .null
  obtain ⟨join, both⟩ := plainGroup_process context "both"
    [plainGroup "left" [Hall.plainReview first], Hall.plainReview second] (by simp) (by simp)
  obtain ⟨joinLeft, left⟩ :=
    plainGroup_process context "left" [Hall.plainReview first] (by simp) (by simp)
  rw [besides, both]
  simp only [List.map_cons, List.map_nil, left]
  apply Exists.intro
  refine .more (.forks _ _ _) ?_
  refine .more (.member [] [_] _ (.forks _ _ _)) ?_
  refine .more (.member [] [_] _ (.member [] [] _ (.sits _ _ _ rfl))) ?_
  exact .one (.member [_] [] _ (.sits _ _ _ rfl))

/-- The run begins, and its human steps make their requests. -/
theorem nested_moves (first second : String) :
    ∃ moves scene, Moves (Step plainSetup (nested first second) "run")
      ⟨.opening .idle, .opening (nested first second) "run" .null⟩ moves scene ∧
      .sits (secondSeat first second) ∈ moves := by
  obtain ⟨motion, taken⟩ := besides_moves first second
  let progress := Progress.start (.start "nested" "run" .null)
  have during : Moves (Course.Step plainSetup (nested first second)) _ _ _ :=
    Course.moves_of_motion progress .main (besides first second) [] [.onError, .onComplete] taken
  have run : Moves (Course.Step plainSetup (nested first second)) _ _ _ :=
    .more (.opens _ progress .main [.onError, .onComplete])
      (.more (.begins _ progress .main (besides first second) [] _) during)
  exact ⟨_, _, moves_of_course (.opening .idle) run, by simp⟩

/-- A step beside a group may have the name of a step inside the group: the second request under
their key replaces the first one. -/
theorem one_key_twice : ¬∀ (text execution : String) (setup : Setup) (definition : Definition)
    (environment : Environment) (earlier moves : List Move) (hall : Hall) (scene : Scene)
    (trigger : Value), Definition.ofText text = .ok definition →
    (∀ executor ∈ setup.custom, executor.TakesTurns) →
    (Hall.opening environment).Run earlier hall →
    (∀ seat ∈ hall.seats, seat.key.execution ≠ execution) →
    Moves (Step setup definition execution) ⟨hall, .opening definition execution trigger⟩ moves
      scene →
    ∀ move ∈ moves, ¬move.Spoils execution := by
  intro claim
  obtain ⟨moves, scene, run, sits⟩ := nested_moves "review" "review"
  have accepted : Definition.ofText (nestedText "review" "review") =
      .ok (nested "review" "review") := by
    decide +kernel
  have spared := claim _ "run" plainSetup _ .idle [] moves _ scene .null accepted
    (by simp [plainSetup]) .here (by simp [Hall.opening, Hall.seats]) run _ sits
  exact spared ⟨rfl, by decide⟩

/-- With another name both requests stay where they are. -/
theorem two_keys : ∃ moves scene, Moves (Step plainSetup (nested "review" "release") "run")
      ⟨.opening .idle, .opening (nested "review" "release") "run" .null⟩ moves scene ∧
    .sits (secondSeat "review" "release") ∈ moves ∧ ∀ move ∈ moves, ¬move.Spoils "run" := by
  obtain ⟨moves, scene, run, sits⟩ := nested_moves "review" "release"
  have accepted : Definition.ofText (nestedText "review" "release") =
      .ok (nested "review" "release") := by
    decide +kernel
  have apart : (nested "review" "release").NestsApart plainSetup.maxParallelSteps := by
    decide +kernel
  exact ⟨moves, scene, run, sits, nothing_spoiled accepted apart (by simp [plainSetup]) .here
    (by simp [Hall.opening, Hall.seats]) .null run⟩

end Scene

end Workflow
