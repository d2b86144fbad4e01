import Workflow.Proofs.Host.Places
import Workflow.Proofs.Run.Announcements

/-!
# What incidents do at a desk and tell in a channel

Every incident on a host consists of dealings at the desk and in the channel of an engine: those of
the task that has its turn, begins or is dropped, if it runs on that engine, and an answer if a
decision is handed in there. What is told does not depend on what has been told before, and what
happens decides what is told.
-/
namespace Workflow

namespace Host

/-- The host with another channel for the events of an engine. -/
def withChannel (host : Host) (engine : Nat) (channel : Channel) : Host :=
  { host with engines := host.engines.modify engine fun engine => { engine with channel } }

variable {host : Host} {engine : Nat}

/-- The engine has the other channel and is otherwise the same. -/
theorem engine_withChannel (inside : engine < host.engines.length) (channel : Channel) :
    (host.withChannel engine channel).engine engine =
      { host.engine engine with channel } := by
  simp [Host.engine, withChannel, List.getElem?_eq_getElem inside]

/-- The other engines keep theirs. -/
theorem engine_withChannel_of_ne {other : Nat} (differ : other ≠ engine) (channel : Channel) :
    (host.withChannel engine channel).engine other = host.engine other := by
  simp [Host.engine, withChannel, List.getElem?_modify_ne _ _ differ.symm]

/-- What becomes of an environment takes the place of the channel. -/
theorem absorb_withChannel (channel other : Channel) (environment : Environment) :
    (host.withChannel engine channel).absorb engine { environment with channel := other } =
      (host.absorb engine environment).withChannel engine other := by
  simp only [withChannel, absorb, List.modify_modify_eq]
  rfl

/-- What becomes of the environment of another engine leaves the channel in its place. -/
theorem absorb_withChannel_of_ne {other : Nat} (differ : other ≠ engine) (channel : Channel)
    (environment : Environment) :
    (host.withChannel engine channel).absorb other environment =
      (host.absorb other environment).withChannel engine channel := by
  simp only [withChannel, absorb, List.modify_modify_ne _ _ _ differ]

/-- An engine with the channel that it has is the same. -/
theorem withChannel_self (host : Host) (engine : Nat) :
    host.withChannel engine (host.engine engine).channel = host := by
  have engines : host.engines.modify engine (fun other => { other with
      channel := (host.engine engine).channel }) = host.engines := by
    refine List.ext_getElem? fun index => ?_
    rw [List.getElem?_modify]
    cases found : host.engines[index]? with
    | none => rfl
    | some other =>
      by_cases same : engine = index
      · subst same
        simp [Host.engine, found]
      · simp [same]
  rw [withChannel, engines]

/-- The channel is no concern of the tasks. -/
@[simp] theorem task?_withChannel (channel : Channel) (place : Task.Place) :
    (host.withChannel engine channel).task? place = host.task? place := by
  cases place <;> rfl

/-- To put a task into its place is no concern of the channel. -/
theorem put_withChannel (channel : Channel) (task : Task) (place : Task.Place) :
    (host.withChannel engine channel).put task place =
      (host.put task place).withChannel engine channel := by
  cases place <;> rfl

/-- To clear a place is no concern of the channel. -/
theorem clear_withChannel (channel : Channel) (place : Task.Place) :
    (host.withChannel engine channel).clear place =
      (host.clear place).withChannel engine channel := by
  cases place <;> rfl

/-- What is done on a host consists of dealings at the desk and in the channel of an engine,
whatever has been published there before; and every request is announced as soon as it lies on the
desk. -/
structure Deals (host : Host) (engine : Nat) (act : Host → Host × A) (dealings : List Dealing) :
    Prop where
  desk : ((act host).1.engine engine).desk =
    ((host.environment (host.engine engine)).dealAll dealings).desk
  publications : ((act host).1.engine engine).publications =
    ((host.environment (host.engine engine)).dealAll dealings).publications
  prompt : Dealing.Prompt dealings
  channel : ∀ channel, act (host.withChannel engine channel) =
    ((act host).1.withChannel engine (channel.publishAll (Dealing.events dealings)), (act host).2)

namespace Deals

variable {act : Host → Host × A} {dealings : List Dealing}

/-- What is done in the environment of the engine. -/
theorem within (inside : engine < host.engines.length)
    (act : Setup → Environment → Environment × A)
    (deals : (host.environment (host.engine engine)).Deals (act (host.engine engine).setup)
      dealings) :
    host.Deals engine (fun host => host.within engine act) dealings where
  desk := by
    rw [← deals.desk]
    exact congrArg Engine.desk (host.engine_absorb_self inside _)
  publications := by
    rw [← deals.publications]
    exact congrArg Engine.publications (host.engine_absorb_self inside _)
  prompt := deals.prompt
  channel channel := by
    unfold Host.within
    dsimp only
    rw [engine_withChannel inside]
    have acts := deals.channel channel
    change act (host.engine engine).setup ((host.withChannel engine channel).environment
      { host.engine engine with channel }) = _ at acts
    have setup : ({ host.engine engine with channel } : Engine).setup =
        (host.engine engine).setup := rfl
    rw [setup, acts, absorb_withChannel]

/-- What is done in the environment of another engine. -/
theorem within_of_ne {other : Nat} (differ : other ≠ engine)
    (act : Setup → Environment → Environment × A) :
    host.Deals engine (fun host => host.within other act) [] where
  desk := congrArg Engine.desk (host.engine_absorb_of_ne differ.symm _)
  publications := congrArg Engine.publications (host.engine_absorb_of_ne differ.symm _)
  prompt := .nil
  channel channel := by
    unfold Host.within
    dsimp only
    rw [engine_withChannel_of_ne differ, absorb_withChannel_of_ne differ]
    rfl

/-- What touches no engine. -/
theorem quiet (engines : (act host).1.engines = host.engines)
    (passes : ∀ channel, act (host.withChannel engine channel) =
      ((act host).1.withChannel engine channel, (act host).2)) :
    host.Deals engine act [] where
  desk := congrArg Engine.desk (engine_congr engines engine)
  publications := congrArg Engine.publications (engine_congr engines engine)
  prompt := .nil
  channel := passes

/-- What follows touches no engine. -/
theorem finish (deals : host.Deals engine act dealings) (last : A → Host → Host)
    (engines : ∀ result later, (last result later).engines = later.engines)
    (passes : ∀ result later channel,
      last result (later.withChannel engine channel) =
        (last result later).withChannel engine channel) :
    host.Deals engine (fun host => (last (act host).2 (act host).1, ())) dealings where
  desk := by
    rw [← deals.desk]
    exact congrArg Engine.desk (engine_congr (engines _ _) engine)
  publications := by
    rw [← deals.publications]
    exact congrArg Engine.publications (engine_congr (engines _ _) engine)
  prompt := deals.prompt
  channel channel := by rw [deals.channel, passes]

/-- The result is told in other words. -/
theorem map (deals : host.Deals engine act dealings) (tell : A → B) :
    host.Deals engine (fun host => ((act host).1, tell (act host).2)) dealings where
  desk := deals.desk
  publications := deals.publications
  prompt := deals.prompt
  channel channel := by rw [deals.channel]

/-- What does the same on the host consists of the same dealings. -/
theorem congr {act' : Host → Host × A} (deals : host.Deals engine act' dealings)
    (same : ∀ channel, act (host.withChannel engine channel) =
      act' (host.withChannel engine channel)) (here : act host = act' host) :
    host.Deals engine act dealings where
  desk := by rw [here, deals.desk]
  publications := by rw [here, deals.publications]
  prompt := deals.prompt
  channel channel := by rw [same, here, deals.channel]

/-- The events are published in the channel that is there. -/
theorem channel_here (deals : host.Deals engine act dealings)
    (inside : engine < (act host).1.engines.length) :
    ((act host).1.engine engine).channel =
      (host.engine engine).channel.publishAll (Dealing.events dealings) := by
  have same := deals.channel (host.engine engine).channel
  rw [withChannel_self] at same
  rw [congrArg Prod.fst same]
  exact congrArg Engine.channel (engine_withChannel inside _)

/-- In a channel in which nothing has been told before there is afterwards what is told. -/
theorem channel_fresh (deals : host.Deals engine act dealings)
    (inside : engine < (act host).1.engines.length) (room : Nat) :
    ((act (host.withChannel engine (.telling room []))).1.engine engine).channel =
      .telling room (Dealing.events dealings) := by
  rw [deals.channel, engine_withChannel inside, Channel.publishAll_telling]
  rfl

/-- What is told is what such a channel keeps, if it has room for it. -/
theorem events_eq (deals : host.Deals engine act dealings)
    (inside : engine < (act host).1.engines.length) (room : Nat) (told : List Event)
    (channel : ((act (host.withChannel engine (.telling room []))).1.engine engine).channel =
      .telling room told)
    (enough : told.length ≤ room) : Dealing.events dealings = told := by
  rw [deals.channel_fresh inside] at channel
  have lengths : (Dealing.events dealings).length = told.length :=
    congrArg Channel.published channel
  have kept : (Dealing.events dealings).reverse.take room = told.reverse.take room :=
    congrArg Channel.recent channel
  rw [List.take_of_length_le (by simpa [lengths] using enough),
    List.take_of_length_le (by simpa using enough)] at kept
  exact List.reverse_inj.mp kept

/-- What is done on a host decides what is told. -/
theorem events_unique {others : List Dealing} (deals : host.Deals engine act dealings)
    (inside : engine < (act host).1.engines.length) (also : host.Deals engine act others) :
    Dealing.events dealings = Dealing.events others :=
  deals.events_eq inside _ _ (also.channel_fresh inside _) (Nat.le_refl _)

end Deals

/-! ## Incidents -/

/-- An incident consists of dealings at an engine. -/
def Incident.Deals (incident : Incident) (host : Host) (engine : Nat) (dealings : List Dealing) :
    Prop :=
  host.Deals engine (fun host => (host.after incident, ())) dealings

variable {place : Task.Place} {task : Task} {dealings : List Dealing}

/-- The task in a place deals in its turn. -/
theorem deals_turn (found : host.task? place = some task)
    (deals : host.Deals engine (fun host => task.resume host) dealings) :
    (Incident.turn place).Deals host engine dealings := by
  have turns := deals.finish (fun task host => host.put task place)
    (fun task host => by cases place <;> rfl) (fun task host channel => put_withChannel ..)
  refine turns.congr (fun channel => ?_) ?_
  · exact congrArg (·, ()) (goOn_of_task? ((task?_withChannel channel place).trans found))
  · exact congrArg (·, ()) (goOn_of_task? found)

/-- The task in a place deals when it is dropped. -/
theorem deals_leaves (found : host.task? place = some task)
    (deals : host.Deals engine (fun host => (task.drop host, ())) dealings) :
    (Incident.leaves place).Deals host engine dealings := by
  have drops := deals.finish (fun _ host => host.clear place)
    (fun _ host => by cases place <;> rfl) (fun _ host channel => clear_withChannel ..)
  refine drops.congr (fun channel => ?_) ?_
  · exact congrArg (·, ()) (dismiss_of_task? ((task?_withChannel channel place).trans found))
  · exact congrArg (·, ()) (dismiss_of_task? found)

/-- A run deals when it enters. -/
theorem Enters.deals {begun : Nat} {workflow execution : String} {trigger : Value}
    {incident : Incident} (enters : host.Enters begun workflow execution trigger incident place)
    (deals : host.Deals engine (fun host => host.begin begun workflow execution trigger)
      dealings) : incident.Deals host engine dealings := by
  cases enters with
  | background =>
    exact deals.finish (fun task host => { host with runs := host.runs ++ [task] })
      (fun _ _ => rfl) (fun _ _ _ => rfl)
  | foreground free =>
    have begins := deals.finish (fun task host => { host with foreground := some task })
      (fun _ _ => rfl) (fun _ _ _ => rfl)
    have vacant : ∀ host' : Host, host'.foreground = none →
        host'.after (.executes begun workflow execution trigger) =
          { (host'.begin begun workflow execution trigger).1 with
            foreground := some (host'.begin begun workflow execution trigger).2 } := by
      intro host' free
      rw [after, free]
      rfl
    refine begins.congr (fun channel => ?_) ?_
    · exact congrArg (·, ()) (vacant _ free)
    · exact congrArg (·, ()) (vacant _ free)

/-- A workflow that is not known begins without dealings. -/
theorem deals_begin_unknown {workflow : String} (unknown : host.library.find? workflow = none)
    (begun : Nat) (execution : String) (trigger : Value) :
    host.Deals engine (fun host => host.begin begun workflow execution trigger) [] := by
  have refused : ∀ host' : Host, host'.library = host.library →
      host'.begin begun workflow execution trigger =
        (host', .ended (.error (.workflowNotFound workflow))) := by
    intro host' same
    rw [begin, same, unknown]
  refine .quiet ?_ fun channel => ?_
  · rw [refused host rfl]
  · rw [refused host rfl]
    exact refused _ rfl

/-- A workflow that is known deals as its run does when it starts. -/
theorem Deals.begin {workflow : String} {definition : Definition}
    (known : host.library.find? workflow = some definition) {begun : Nat} {execution : String}
    {trigger : Value}
    (deals : host.Deals engine
      (fun host => host.within begun fun setup => Run.start setup definition execution trigger)
      dealings) :
    host.Deals engine (fun host => host.begin begun workflow execution trigger) dealings := by
  have begins : ∀ host' : Host, host'.library = host.library →
      host'.begin begun workflow execution trigger =
        ((host'.within begun fun setup => Run.start setup definition execution trigger).1,
          .ofState begun
            (host'.within begun fun setup => Run.start setup definition execution trigger).2) := by
    intro host' same
    rw [Host.begin, same, known]
  exact (deals.map (Task.ofState begun)).congr (fun channel => begins _ rfl) (begins host rfl)

/-! ## All incidents -/

/-- What deals in every environment deals in that of some engine. -/
theorem exists_deals_within (inside : engine < host.engines.length)
    (act : Setup → Environment → Environment × A)
    (deals : ∀ setup environment, ∃ dealings, Environment.Deals environment (act setup) dealings)
    (other : Nat) : ∃ dealings, host.Deals engine (fun host => host.within other act) dealings := by
  by_cases same : other = engine
  · subst same
    obtain ⟨dealings, deals⟩ := deals (host.engine other).setup
      (host.environment (host.engine other))
    exact ⟨dealings, .within inside act deals⟩
  · exact ⟨[], .within_of_ne same act⟩

/-- To begin a workflow consists of dealings. -/
theorem exists_deals_begin (inside : engine < host.engines.length) (begun : Nat)
    (workflow execution : String) (trigger : Value) : ∃ dealings,
    host.Deals engine (fun host => host.begin begun workflow execution trigger) dealings := by
  cases known : host.library.find? workflow with
  | none => exact ⟨[], deals_begin_unknown known begun execution trigger⟩
  | some definition =>
    obtain ⟨dealings, deals⟩ := exists_deals_within inside
      (fun setup => Run.start setup definition execution trigger)
      (fun setup environment => (Run.start_deals Rules.free_registered
        (fun _ _ _ _ _ => Process.obeys_free _) trigger environment).exists_deals) begun
    exact ⟨dealings, deals.begin known⟩

/-- The turn of a task consists of dealings. -/
theorem exists_deals_resume (inside : engine < host.engines.length) (task : Task) :
    ∃ dealings, host.Deals engine (fun host => task.resume host) dealings := by
  cases task with
  | single other size activity =>
    obtain ⟨dealings, deals⟩ := exists_deals_within inside
      (fun _ environment => activity.resume environment)
      (fun _ environment => (activity.obeys_free.deals_resume Rules.free_registered
        environment).exists_deals) other
    exact ⟨dealings, deals.map (Task.single other size)⟩
  | running other run =>
    obtain ⟨dealings, deals⟩ := exists_deals_within inside (fun setup => run.resume setup)
      (fun setup environment => (Run.resume_deals Rules.free_registered rfl
        (fun _ _ _ _ _ => Process.obeys_free _) (fun _ _ _ _ => Process.obeys_free _)
        run.activity.obeys_free environment).exists_deals) other
    exact ⟨dealings, deals.map (Task.ofState other)⟩
  | ended | taken => exact ⟨[], .quiet rfl fun _ => rfl⟩

/-- To drop a task consists of dealings. -/
theorem exists_deals_drop (inside : engine < host.engines.length) (task : Task) :
    ∃ dealings, host.Deals engine (fun host => (task.drop host, ())) dealings := by
  cases task with
  | single other size activity =>
    exact exists_deals_within inside (fun _ environment => (activity.drop environment, ()))
      (fun _ environment => (activity.deals_drop environment).imp' _ fun _ deals => deals) other
  | running other run =>
    exact exists_deals_within inside (fun _ environment => (run.drop environment, ()))
      (fun _ environment => (run.activity.deals_drop environment).imp' _ fun _ deals => deals) other
  | ended | taken => exact ⟨[], .quiet rfl fun _ => rfl⟩

/-- To hand in a decision at an engine is to answer there. -/
theorem deals_submits (inside : engine < host.engines.length) (key : ReviewKey)
    (decision : Decision) :
    (Incident.submits engine key decision).Deals host engine [.answers key decision] := by
  have prompt : Dealing.Prompt [.answers key decision] := .one trivial
  refine (Deals.within inside _ ⟨⟨?_, ?_⟩, prompt, fun channel => ?_⟩).map fun _ => ()
  all_goals
    dsimp only
    split <;> rfl

/-- To edit the library is no concern of the channel. -/
theorem edit_withChannel (channel : Channel) (edit : Edit) :
    (host.withChannel engine channel).edit edit = (host.edit edit).withChannel engine channel := by
  have library : (host.withChannel engine channel).library = host.library := rfl
  have disk : (host.withChannel engine channel).disk = host.disk := rfl
  cases edit with
  | register name action =>
    simp only [Host.edit, register, change, library]
    split <;> rfl
  | loadText text =>
    simp only [Host.edit, loadText, changeNamed, library]
    split <;> rfl
  | loadFile path =>
    simp only [Host.edit, loadFile, changeNamed, library, disk]
    split <;> rfl
  | loadDirectory other =>
    have settings : ((host.withChannel engine channel).engine other).settings =
        (host.engine other).settings := by
      simp only [Host.engine, withChannel, List.getElem?_modify]
      split <;> cases host.engines[other]? <;> rfl
    simp only [Host.edit, loadDirectory, library, disk, settings]
    split <;> rfl
  | reload text =>
    simp only [Host.edit, reload, change, library]
    split <;> rfl
  | insert text =>
    simp only [Host.edit, insert, changeNamed, library]
    split <;> rfl
  | upsert text =>
    simp only [Host.edit, upsert, library]
    split <;> rfl
  | remove name => rfl

/-- An incident that leaves a host as it is deals with nothing. -/
theorem deals_idle {incident : Incident}
    (stays : ∀ channel, (host.withChannel engine channel).after incident =
      host.withChannel engine channel) (here : host.after incident = host) :
    incident.Deals host engine [] :=
  .quiet (congrArg Host.engines here) fun channel => by rw [stays, here]

/-- Every incident consists of dealings. -/
theorem exists_deals (host : Host) (inside : engine < host.engines.length) (incident : Incident) :
    ∃ dealings, incident.Deals host engine dealings := by
  cases incident with
  | turn place =>
    cases found : host.task? place with
    | none =>
      have stays : ∀ host' : Host, host'.task? place = none →
          host'.after (.turn place) = host' := by
        intro host' missing
        rw [after, goOn, missing]
      exact ⟨[], deals_idle (fun channel => stays _ ((task?_withChannel channel place).trans found))
        (stays host found)⟩
    | some task =>
      obtain ⟨dealings, deals⟩ := exists_deals_resume inside task
      exact ⟨dealings, deals_turn found deals⟩
  | passes duration => exact ⟨[], .quiet rfl fun _ => rfl⟩
  | begins begun workflow execution trigger =>
    obtain ⟨dealings, deals⟩ := exists_deals_begin inside begun workflow execution trigger
    exact ⟨dealings, Enters.background.deals deals⟩
  | executes begun workflow execution trigger =>
    cases free : host.foreground with
    | none =>
      obtain ⟨dealings, deals⟩ := exists_deals_begin inside begun workflow execution trigger
      exact ⟨dealings, (Enters.foreground free).deals deals⟩
    | some task =>
      have stays : ∀ host' : Host, host'.foreground = some task →
          host'.after (.executes begun workflow execution trigger) = host' := by
        intro host' busy
        rw [after, busy]
        rfl
      exact ⟨[], deals_idle (fun channel => stays _ free) (stays host free)⟩
  | submits other key decision =>
    by_cases same : other = engine
    · subst same
      exact ⟨_, deals_submits inside key decision⟩
    · exact ⟨[], (Deals.within_of_ne same _).map fun _ => ()⟩
  | leaves place =>
    cases found : host.task? place with
    | none =>
      have stays : ∀ host' : Host, host'.task? place = none →
          host'.after (.leaves place) = host' := by
        intro host' missing
        rw [after, dismiss, missing]
        exact clear_of_missing missing
      exact ⟨[], deals_idle (fun channel => stays _ ((task?_withChannel channel place).trans found))
        (stays host found)⟩
    | some task =>
      obtain ⟨dealings, deals⟩ := exists_deals_drop inside task
      exact ⟨dealings, deals_leaves found deals⟩
  | edits edit =>
    refine ⟨[], .quiet ?_ fun channel => congrArg (·, ()) (edit_withChannel channel edit)⟩
    obtain ⟨library, same | same⟩ := host.edit_eq edit
    · have engines := congrArg Host.engines same
      exact engines
    · have engines := congrArg Host.engines same
      exact engines
  | stores disk => exact ⟨[], .quiet rfl fun _ => rfl⟩

end Host

end Workflow
