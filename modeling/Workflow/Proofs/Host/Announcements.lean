import Workflow.Proofs.Host.Dealings
import Workflow.Proofs.Host.Isolation

/-!
# What the runs on a host announce

A run deals when it enters and in its own turns. Together these dealings tell that it has started,
its requests in the order in which they were made and, as soon as it is over, that it has finished;
whatever else happens on the host in between tells nothing of it. Other tasks may make requests
under the same identifier: only the place of a run tells its dealings from those of others.

The engine records each event that it publishes with the desk as it lay at that moment. In every
such state of the desk the request that is announced lies there already.
-/
namespace Workflow

namespace Host

variable {host : Host} {engine : Nat} {place : Task.Place}

/-! ## The turns of a run -/

/-- What the task in a place has dealt at an engine in its own turns, whatever else has happened. -/
inductive Log (engine : Nat) (place : Task.Place) : Host → List Incident → List Dealing → Prop where
  | nothing (host : Host) : Log engine place host [] []
  | own {host : Host} {rest : List Incident} {dealings others : List Dealing}
      (deals : (Incident.turn place).Deals host engine dealings)
      (further : Log engine place (host.after (.turn place)) rest others) :
      Log engine place host (.turn place :: rest) (dealings ++ others)
  | other {host : Host} {incident : Incident} {rest : List Incident} {dealings : List Dealing}
      (differ : incident ≠ .turn place)
      (further : Log engine place (host.after incident) rest dealings) :
      Log engine place host (incident :: rest) dealings

/-- What is neither the turn nor the end of a place leaves its task as it is. -/
theorem elsewhere {incident : Incident} (differ : .leaves place ≠ incident)
    (other : incident ≠ .turn place) : incident.place? ≠ some place := by
  cases incident with
  | turn place' => exact fun same => other (congrArg Incident.turn (Option.some.inj same))
  | leaves place' =>
    exact fun same => differ (congrArg Incident.leaves (Option.some.inj same).symm)
  | passes | begins | executes | submits | edits | stores => exact fun same => nomatch same

/-- A run that is over deals with nothing. -/
theorem deals_turn_ended {result : Except EngineError Report}
    (found : host.task? place = some (.ended result)) :
    (Incident.turn place).Deals host engine [] :=
  deals_turn found (.quiet rfl fun _ => rfl)

/-- A run that is over deals with nothing until its result is taken. -/
theorem log_ended {result : Except EngineError Report} (later : List Incident)
    (stays : .leaves place ∉ later) (found : host.task? place = some (.ended result)) :
    host.Log engine place later [] := by
  induction later generalizing host with
  | nil => exact .nothing host
  | cons incident rest ih =>
    obtain ⟨differ, kept⟩ := not_or.mp (mt List.mem_cons.mpr stays)
    by_cases own : incident = .turn place
    · subst own
      have here : (host.after (.turn place)).task? place = some (.ended result) := by
        rw [after, goOn_of_ended found]
        exact found
      exact .own (deals_turn_ended found) (ih kept here)
    · exact .other own (ih kept (task?_after found (elsewhere differ own)))

/-- What happens on a host decides what a task tells in its turns. -/
theorem Log.events_unique (inside : engine < host.engines.length) {incidents : List Incident}
    {dealings others : List Dealing} (log : host.Log engine place incidents dealings)
    (also : host.Log engine place incidents others) :
    Dealing.events dealings = Dealing.events others := by
  induction log generalizing others with
  | nothing => cases also with | nothing => rfl
  | @own host _ _ _ deals _ ih =>
    have still : engine < (host.after (.turn place)).engines.length := by
      rwa [(host.samePlans_after _).length]
    cases also with
    | own alsoDeals also =>
      rw [Dealing.events_append, Dealing.events_append, deals.events_unique still alsoDeals,
        ih still also]
    | other differ => exact absurd rfl differ
  | @other host incident _ _ differ _ ih =>
    have still : engine < (host.after incident).engines.length := by
      rwa [(host.samePlans_after _).length]
    cases also with
    | own => exact absurd rfl differ
    | other _ also => exact ih still also

/-! ## Publications -/

/-- What an engine publishes from one state of the host to a later one, the last publication first.
All are made in time. -/
structure Publishes (host : Host) (engine : Nat) (later : Host) (news : List Publication) :
    Prop where
  record : (later.engine engine).publications = news ++ (host.engine engine).publications
  timely : ∀ publication ∈ news, publication.Timely

/-- As long as nothing happens nothing is published. -/
theorem Publishes.nothing (host : Host) (engine : Nat) : host.Publishes engine host [] :=
  ⟨rfl, fun _ member => absurd member List.not_mem_nil⟩

/-- What is published later comes before what was published earlier. -/
theorem Publishes.trans {middle final : Host} {earlier news : List Publication}
    (first : host.Publishes engine middle earlier) (next : middle.Publishes engine final news) :
    host.Publishes engine final (news ++ earlier) where
  record := by rw [next.record, first.record, List.append_assoc]
  timely := List.forall_mem_append.mpr ⟨next.timely, first.timely⟩

/-- An incident publishes the events that it tells, one after another. -/
theorem publishes_after {incident : Incident} {dealings : List Dealing}
    (deals : incident.Deals host engine dealings) :
    ∃ news, host.Publishes engine (host.after incident) news ∧
      Dealing.events dealings = (news.map Publication.event).reverse := by
  obtain ⟨news, come, told, timely⟩ :=
    (host.environment (host.engine engine)).publications_dealAll deals.prompt
  refine ⟨news, ⟨deals.publications.trans come, timely⟩, ?_⟩
  rw [told, List.reverse_reverse]

/-- Whoever deals prompt in each of his turns deals prompt in all of them. -/
theorem Log.prompt {incidents : List Incident} {dealings : List Dealing}
    (log : host.Log engine place incidents dealings) : Dealing.Prompt dealings := by
  induction log with
  | nothing => exact .nil
  | own deals _ ih => exact deals.prompt.append ih
  | other _ _ ih => exact ih

/-- What a task tells in its turns is among what its engine publishes, in the same order. -/
theorem Log.published (inside : engine < host.engines.length) {incidents : List Incident}
    {dealings : List Dealing} (log : host.Log engine place incidents dealings) :
    ∃ news, host.Publishes engine (host.afterAll incidents) news ∧
      (Dealing.events dealings).Sublist (news.map Publication.event).reverse := by
  induction log with
  | nothing host => exact ⟨[], .nothing host engine, .refl _⟩
  | @own host _ _ _ deals _ ih =>
    have still : engine < (host.after (.turn place)).engines.length := by
      rwa [(host.samePlans_after _).length]
    obtain ⟨earlier, first, told⟩ := publishes_after deals
    obtain ⟨news, next, among⟩ := ih still
    refine ⟨news ++ earlier, first.trans next, ?_⟩
    rw [Dealing.events_append, told, List.map_append, List.reverse_append]
    exact (List.Sublist.refl _).append among
  | @other host incident _ _ _ _ ih =>
    have still : engine < (host.after incident).engines.length := by
      rwa [(host.samePlans_after _).length]
    obtain ⟨dealings, deals⟩ := host.exists_deals inside incident
    obtain ⟨earlier, first, -⟩ := publishes_after deals
    obtain ⟨news, next, among⟩ := ih still
    refine ⟨news ++ earlier, first.trans next, ?_⟩
    rw [List.map_append, List.reverse_append]
    exact among.trans (List.sublist_append_right ..)

/-- What a task tells when it begins and in its turns is among what its engine publishes. -/
theorem Incident.Deals.published {incident : Incident} (inside : engine < host.engines.length)
    {later : List Incident} {first others : List Dealing}
    (begins : incident.Deals host engine first)
    (log : (host.after incident).Log engine place later others) :
    ∃ news, host.Publishes engine ((host.after incident).afterAll later) news ∧
      (Dealing.events (first ++ others)).Sublist (news.map Publication.event).reverse := by
  obtain ⟨earlier, publishes, told⟩ := publishes_after begins
  obtain ⟨news, next, among⟩ := log.published (by rwa [(host.samePlans_after _).length])
  refine ⟨news ++ earlier, publishes.trans next, ?_⟩
  rw [Dealing.events_append, told, List.map_append, List.reverse_append]
  exact (List.Sublist.refl _).append among

section Turns

variable {rules : Rules} {definition : Definition} {execution : String}
  (free : ∀ action, ¬rules.registered action)
  (tolerated : ∀ execution workflow step error,
    rules.tolerates (.runFailed execution workflow step error))

include free tolerated

/-- In its turn a run deals, and tells that it has finished if it is over afterwards. One that is
over has told so already. -/
theorem turn_announced (inside : engine < host.engines.length)
    (conduct : definition.Obeys rules (host.engine engine).setup execution) {state : RunState}
    (found : host.task? place = some (.ofState engine state))
    (obeys : state.Obeys rules definition execution) :
    ∃ dealings admitted later, (Incident.turn place).Deals host engine dealings ∧
      (host.after (.turn place)).task? place = some (.ofState engine later) ∧
      later.Obeys rules definition execution ∧ (∀ dealing ∈ admitted, rules.Admits dealing) ∧
      state.closing ++ dealings = admitted ++ later.closing := by
  obtain run | report := state
  · let later := (run.resume (host.engine engine).setup (host.environment (host.engine engine))).2
    have obeyed : later.Obeys rules definition execution :=
      (Run.resume_obeys (rules.keeps_true free) tolerated conduct _ obeys [] trivial).1
    have here : (host.after (.turn place)).task? place = some (.ofState engine later) := by
      rw [after, goOn_of_task? found]
      exact task?_put_self (by rw [(sameTasks_resume host _).task?, found]; rfl)
    cases obeys with
    | waiting same done going remain =>
      subst same
      obtain ⟨admitted, deals, allowed⟩ := Run.resume_deals free done.own conduct
        (fun step among => conduct run.phase step (remain among)) going
        (host.environment (host.engine engine))
      have resumes := (Deals.within inside (fun setup => run.resume setup) deals).map
        (Task.ofState engine)
      exact ⟨admitted ++ later.closing, admitted, later, deals_turn found resumes, here, obeyed,
        allowed, rfl⟩
  · have ended : host.task? place = some (.ended (.ok report)) := found
    refine ⟨[], [], .over report, deals_turn_ended ended, ?_, obeys, by simp, by simp⟩
    rw [after, goOn_of_ended ended]
    exact found

/-- During any incidents a run deals in its own turns only, until it is given up. -/
theorem log_announced (later : List Incident) (stays : .leaves place ∉ later)
    (inside : engine < host.engines.length)
    (conduct : definition.Obeys rules (host.engine engine).setup execution) {state : RunState}
    (found : host.task? place = some (.ofState engine state))
    (obeys : state.Obeys rules definition execution) :
    ∃ dealings admitted final, host.Log engine place later dealings ∧
      (host.afterAll later).task? place = some (.ofState engine final) ∧
      final.Obeys rules definition execution ∧ (∀ dealing ∈ admitted, rules.Admits dealing) ∧
      state.closing ++ dealings = admitted ++ final.closing := by
  induction later generalizing host state with
  | nil => exact ⟨[], [], state, .nothing host, found, obeys, by simp, by simp⟩
  | cons incident rest ih =>
    obtain ⟨differ, kept⟩ := not_or.mp (mt List.mem_cons.mpr stays)
    have plans := host.samePlans_after incident
    have still : engine < (host.after incident).engines.length := by rwa [plans.length]
    have conducts :
        definition.Obeys rules ((host.after incident).engine engine).setup execution := by
      rwa [plans.setup]
    by_cases own : incident = .turn place
    · subst own
      obtain ⟨dealings, admitted, next, deals, here, obeyed, allowed, told⟩ :=
        turn_announced free tolerated inside conduct found obeys
      obtain ⟨others, alsoAdmitted, final, log, there, obeyedToo, allowedToo, toldToo⟩ :=
        ih kept still conducts here obeyed
      refine ⟨dealings ++ others, admitted ++ alsoAdmitted, final, .own deals log, there, obeyedToo,
        List.forall_mem_append.mpr ⟨allowed, allowedToo⟩, ?_⟩
      rw [← List.append_assoc, told, List.append_assoc, toldToo, List.append_assoc]
    · obtain ⟨dealings, admitted, final, log, there, obeyed, allowed, told⟩ :=
        ih kept still conducts (task?_after found (elsewhere differ own)) obeys
      exact ⟨dealings, admitted, final, .other own log, there, obeyed, allowed, told⟩

end Turns

/-! ## Runs -/

/-- What a run of a workflow has announced with its requests, where it stands in its place: that it
has started, the requests, and, if it is over, that it has finished with the status of its
report. -/
inductive Announced (host : Host) (engine : Nat) (place : Task.Place) (execution workflow : String)
    (requests : List Request) : List Event → Prop where
  | underway {run : Run} (found : host.task? place = some (.running engine run)) :
      Announced host engine place execution workflow requests
        (.runStarted execution workflow :: requests.map .reviewRequested)
  | ended {report : Report} (found : host.task? place = some (.ended (.ok report)))
      (own : report.execution = execution) :
      Announced host engine place execution workflow requests
        (.runStarted execution workflow :: requests.map .reviewRequested ++
          [.runFinished execution report.workflow report.status])

/-- A run that is given up leaves its seats; it tells nothing. -/
theorem Announced.deals_leaves {execution workflow : String} {requests : List Request}
    {events : List Event}
    (announced : host.Announced engine place execution workflow requests events)
    (inside : engine < host.engines.length) : ∃ leaving,
    (Incident.leaves place).Deals host engine leaving ∧ Dealing.events leaving = [] := by
  cases announced with
  | @underway run found =>
    obtain ⟨seats, drops⟩ := run.activity.deals_drop (host.environment (host.engine engine))
    exact ⟨_, Host.deals_leaves found
      (.within inside (fun _ environment => (run.drop environment, ())) drops),
      Dealing.events_leaves seats⟩
  | ended found own => exact ⟨[], Host.deals_leaves found (.quiet rfl fun _ => rfl), rfl⟩

/-- Where a run stands decides what it has announced. -/
theorem announced_of_standing {rules : Rules} {definition : Definition} {execution : String}
    {state : RunState} (found : host.task? place = some (.ofState engine state))
    (obeys : state.Obeys rules definition execution) {admitted : List Dealing}
    (allowed : ∀ dealing ∈ admitted, rules.Admits dealing) (prompt : Dealing.Prompt admitted)
    (workflow : String) :
    host.Announced engine place execution workflow (Dealing.requests admitted)
      (.runStarted execution workflow :: Dealing.events (admitted ++ state.closing)) := by
  rw [Dealing.events_append, Rules.events_of_admits prompt allowed]
  cases obeys with
  | waiting same done going remain =>
    rw [RunState.closing, Dealing.events, List.filterMap_nil, List.append_nil]
    exact .underway found
  | @ended report own explained =>
    subst own
    exact .ended found rfl

/-- A run whose steps obey rules announces its start, its requests and its end. -/
theorem announced_by_rules {rules : Rules} (free : ∀ action, ¬rules.registered action)
    (tolerated : ∀ execution workflow step error,
      rules.tolerates (.runFailed execution workflow step error))
    (inside : engine < host.engines.length) {workflow execution : String} {trigger : Value}
    {incident : Incident} (enters : host.Enters engine workflow execution trigger incident place)
    {definition : Definition} (known : host.library.find? workflow = some definition)
    (conduct : definition.Obeys rules (host.engine engine).setup execution)
    (later : List Incident) (stays : .leaves place ∉ later) :
    ∃ first others, incident.Deals host engine first ∧
      (host.after incident).Log engine place later others ∧
      ((host.after incident).afterAll later).Announced engine place execution definition.name
        (Dealing.requests (first ++ others)) (Dealing.events (first ++ others)) ∧
      ∀ request ∈ Dealing.requests (first ++ others), rules.asks request.key := by
  let environment := host.environment (host.engine engine)
  let state := (Run.start (host.engine engine).setup definition execution trigger environment).2
  obtain ⟨admitted, starts, allowed⟩ := Run.start_deals free conduct trigger environment
  have obeys : state.Obeys rules definition execution :=
    (Run.start_obeys (rules.keeps_true free) tolerated conduct trigger environment [] trivial).1
  have begins := enters.deals ((Deals.within inside
    (fun setup => Run.start setup definition execution trigger) starts).begin known)
  have found := enters.found
  rw [begin_of_find? known] at found
  have plans := host.samePlans_after incident
  obtain ⟨others, alsoAdmitted, final, log, there, obeyed, alsoAllowed, told⟩ :=
    log_announced free tolerated later stays (by rwa [plans.length]) (by rwa [plans.setup])
      found obeys
  have whole : ∀ dealing ∈ admitted ++ alsoAdmitted, rules.Admits dealing :=
    List.forall_mem_append.mpr ⟨allowed, alsoAllowed⟩
  have all : [.tells (.runStarted execution definition.name)] ++ admitted ++ state.closing ++
      others = .tells (.runStarted execution definition.name) ::
        (admitted ++ alsoAdmitted ++ final.closing) := by
    rw [List.append_assoc, told]
    simp
  have made : Dealing.requests ([.tells (.runStarted execution definition.name)] ++ admitted ++
      state.closing ++ others) = Dealing.requests (admitted ++ alsoAdmitted) := by
    rw [all]
    exact (Dealing.requests_append ..).trans (by rw [final.requests_closing, List.append_nil])
  have prompt : Dealing.Prompt (admitted ++ alsoAdmitted) := by
    have dealt := begins.prompt.append log.prompt
    rw [all] at dealt
    cases dealt with
    | aside _ rest => exact rest.of_append final.aside_closing
  refine ⟨_, others, begins, log, ?_, ?_⟩
  · rw [made, all]
    exact announced_of_standing there obeyed whole prompt definition.name
  · rw [made]
    exact Rules.asks_of_admits whole

/-- Whatever happens on a host, a run announces in order that it has started, each request that it
makes, and that it has finished if it has come to its end, with the status of its report. A run that
is given up and a workflow that is not known announce nothing. Whenever the engine publishes that a
request has been made, this very request lies on the desk, and whoever answers it at that moment is
heard. -/
theorem run_announced (host : Host) {engine : Nat} (inside : engine < host.engines.length)
    {workflow execution : String} {trigger : Value} {incident : Incident} {place : Task.Place}
    (enters : host.Enters engine workflow execution trigger incident place)
    (later : List Incident) (stays : .leaves place ∉ later) :
    (host.library.find? workflow = none → ∀ engine, incident.Deals host engine [] ∧
      (host.after incident).Log engine place later []) ∧
    ∀ definition, host.library.find? workflow = some definition →
      ∃ first others, incident.Deals host engine first ∧
        (host.after incident).Log engine place later others ∧
        (∃ leaving, (Incident.leaves place).Deals ((host.after incident).afterAll later) engine
          leaving ∧ Dealing.events leaving = []) ∧
        ((host.after incident).afterAll later).Announced engine place execution definition.name
          (Dealing.requests (first ++ others)) (Dealing.events (first ++ others)) ∧
        (∃ news, host.Publishes engine ((host.after incident).afterAll later) news ∧
          (Dealing.events (first ++ others)).Sublist (news.map Publication.event).reverse) ∧
        ∀ request ∈ Dealing.requests (first ++ others),
          (∀ executor ∈ (host.engine engine).custom, executor.AsksWithin) →
            request.execution = execution := by
  have plans := (host.samePlans_after incident).trans
    ((host.after incident).samePlans_afterAll later)
  refine ⟨fun unknown engine => ?_, fun definition known => ?_⟩
  · have found := enters.found
    rw [begin, unknown] at found
    exact ⟨enters.deals (deals_begin_unknown unknown _ execution trigger),
      log_ended later stays found⟩
  · by_cases custom : ∀ executor ∈ (host.engine engine).custom, executor.AsksWithin
    · obtain ⟨first, others, begins, log, announced, own⟩ := announced_by_rules
        (Rules.within_free execution) (fun _ _ _ _ => trivial) inside enters known
        (definition.obeys_within custom execution) later stays
      exact ⟨first, others, begins, log, announced.deals_leaves (by rwa [plans.length]), announced,
        begins.published inside log, fun request made _ => own request made⟩
    · obtain ⟨first, others, begins, log, announced, -⟩ := announced_by_rules
        Rules.free_registered (fun _ _ _ _ => trivial) inside enters known
        (fun _ _ _ _ _ => Process.obeys_free _) later stays
      exact ⟨first, others, begins, log, announced.deals_leaves (by rwa [plans.length]), announced,
        begins.published inside log, fun request made within => absurd within custom⟩

/-- The review in the office: its request is published while it lies on the desk, the approval that
is handed in is heard, and the run tells that it has finished. -/
theorem run_announced_answered : ∃ first others news,
    (Incident.begins 0 "approval" "first" .null).Deals office 0 first ∧
    busyOffice.Log 0 (.background 0)
      [.submits 0 ⟨"first", "asks"⟩ .approve, .turn (.background 0)] others ∧
    (busyOffice.afterAll
      [.submits 0 ⟨"first", "asks"⟩ .approve, .turn (.background 0)]).Announced 0 (.background 0)
        "first" "approval" (Dealing.requests (first ++ others)) [
          .runStarted "first" "approval",
          .reviewRequested ⟨"first", "approval", "asks", .text "ready?", none, none⟩,
          .runFinished "first" "approval" .completed] ∧
    office.Publishes 0 (busyOffice.afterAll
      [.submits 0 ⟨"first", "asks"⟩ .approve, .turn (.background 0)]) news ∧
    ∃ publication ∈ news, publication.event =
        .reviewRequested ⟨"first", "approval", "asks", .text "ready?", none, none⟩ ∧
      ∀ decision, (publication.desk.submit ⟨"first", "asks"⟩ decision).1 = .delivered := by
  have enters : office.Enters 0 "approval" "first" .null (.begins 0 "approval" "first" .null)
      (.background 0) := .background
  obtain ⟨first, others, begins, log, -, announced, ⟨news, publishes, among⟩, -⟩ :=
    (run_announced office (by decide) enters
      [.submits 0 ⟨"first", "asks"⟩ .approve, .turn (.background 0)] (by simp)).2 approval rfl
  have started : Dealing.events first = [.runStarted "first" "approval",
      .reviewRequested ⟨"first", "approval", "asks", .text "ready?", none, none⟩] :=
    begins.events_eq (by decide) 8 _ rfl (by decide)
  have finished : Dealing.events others = [.runFinished "first" "approval" .completed] := by
    cases log with
    | other _ log =>
      cases log with
      | own deals log =>
        cases log
        rw [List.append_nil]
        exact deals.events_eq (by decide) 8 _ rfl (by decide)
      | other differ => exact absurd rfl differ
  rw [Dealing.events_append, started, finished] at announced among
  have told : .reviewRequested ⟨"first", "approval", "asks", .text "ready?", none, none⟩ ∈
      (news.map Publication.event).reverse := among.subset (by simp)
  obtain ⟨publication, member, tells⟩ := List.mem_map.mp (List.mem_reverse.mp told)
  exact ⟨first, others, news, begins, log, announced, publishes, publication, member, tells,
    (publishes.timely publication member _ tells).2⟩

end Host

end Workflow
