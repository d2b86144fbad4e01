import Workflow.Proofs.Event.Channel
import Workflow.Proofs.Execution.Calls

/-!
# What a turn does at the desk and tells in the channel

Nothing that runs looks into the channel of events, so a turn takes the same course whatever has
been published before it. `Environment.Deals` says so, and it lists what the turn does at the desk
and publishes, one after the other: the desk, any channel and the record of publications are
afterwards as these dealings leave them. Since the channel is arbitrary, and some channel forgets
nothing, the events of a turn are determined. Since the record keeps the desk as it lay at each
publication, so is the place of each event among the other dealings.

A request is announced by the very next dealing after the one that lays it on the desk. Processes
that obey rules ask humans, discard requests and leave seats only under the keys that the rules
admit, and they tell of nothing but their requests.
-/
namespace Workflow

/-- Something that is done at a desk or told in a channel. -/
inductive Dealing where
  /-- A request is laid on the desk. -/
  | asks (request : Request)
  /-- A time limit is over, so the request under a key is discarded. -/
  | discards (key : ReviewKey)
  | leaves (seat : Seat)
  /-- A decision is handed in about the request under a key. -/
  | answers (key : ReviewKey) (decision : Decision)
  /-- An event is published. -/
  | tells (event : Event)

namespace Dealing

/-- A request is announced. -/
abbrev announces (request : Request) : Dealing := .tells (.reviewRequested request)

/-- The event that a dealing publishes. -/
def event? : Dealing → Option Event
  | .tells event => some event
  | .asks _ | .discards _ | .leaves _ | .answers _ _ => none

/-- The events that dealings publish. -/
def events (dealings : List Dealing) : List Event := dealings.filterMap event?

/-- The request that a dealing makes. -/
def request? : Dealing → Option Request
  | .asks request => some request
  | _ => none

/-- The requests that dealings make. -/
def requests (dealings : List Dealing) : List Request := dealings.filterMap request?

/-- Dealings one after another tell their events one after another. -/
@[simp] theorem events_append (first second : List Dealing) :
    events (first ++ second) = events first ++ events second := List.filterMap_append

/-- Dealings one after another make their requests one after another. -/
@[simp] theorem requests_append (first second : List Dealing) :
    requests (first ++ second) = requests first ++ requests second := List.filterMap_append

/-- Nothing is told when seats are left. -/
theorem events_leaves (seats : List Seat) : events (seats.map .leaves) = [] := by
  rw [events, List.filterMap_map]
  exact List.filterMap_eq_nil_iff.mpr fun _ _ => rfl

/-- The dealing neither lays a request on the desk nor announces one. -/
def Aside : Dealing → Prop
  | .asks _ | .tells (.reviewRequested _) => False
  | .discards _ | .leaves _ | .answers _ _ => True
  | .tells (.runStarted _ _) | .tells (.runFinished _ _ _) => True

/-- Every request is announced as soon as it lies on the desk, and no other request is. -/
inductive Prompt : List Dealing → Prop where
  | nil : Prompt []
  | asks (request : Request) {rest : List Dealing} (others : Prompt rest) :
      Prompt (.asks request :: .announces request :: rest)
  /-- Something else is done first. -/
  | aside {dealing : Dealing} {rest : List Dealing} (aside : dealing.Aside)
      (others : Prompt rest) : Prompt (dealing :: rest)

namespace Prompt

variable {dealings : List Dealing}

/-- Dealings that have nothing to do with requests are prompt. -/
theorem of_aside (aside : ∀ dealing ∈ dealings, dealing.Aside) : Prompt dealings := by
  induction dealings with
  | nil => exact .nil
  | cons dealing rest ih =>
    obtain ⟨first, others⟩ := List.forall_mem_cons.mp aside
    exact .aside first (ih others)

/-- A single dealing that has nothing to do with requests is prompt. -/
theorem one {dealing : Dealing} (aside : dealing.Aside) : Prompt [dealing] := .aside aside .nil

/-- One prompt list of dealings after another is prompt. -/
theorem append {later : List Dealing} (first : Prompt dealings) (second : Prompt later) :
    Prompt (dealings ++ later) := by
  induction first with
  | nil => exact second
  | asks request _ ih => exact .asks request ih
  | aside aside _ ih => exact .aside aside ih

/-- What comes before dealings that have nothing to do with requests is prompt by itself. -/
theorem of_append {later : List Dealing} (aside : ∀ dealing ∈ later, dealing.Aside)
    (prompt : Prompt (dealings ++ later)) : Prompt dealings := by
  generalize whole : dealings ++ later = all at prompt
  induction prompt generalizing dealings with
  | nil =>
    rw [(List.append_eq_nil_iff.mp whole).1]
    exact .nil
  | asks request _ ih =>
    match dealings, whole with
    | [], _ => exact .nil
    | [first], whole =>
      -- The announcement of the request would have nothing to do with requests.
      obtain ⟨-, rfl⟩ := List.cons_eq_cons.mp whole
      exact (aside (.announces request) List.mem_cons_self).elim
    | first :: second :: rest, whole =>
      obtain ⟨rfl, both⟩ := List.cons_eq_cons.mp whole
      obtain ⟨rfl, others⟩ := List.cons_eq_cons.mp both
      exact .asks request (ih others)
  | aside one _ ih =>
    match dealings, whole with
    | [], _ => exact .nil
    | first :: rest, whole =>
      obtain ⟨rfl, others⟩ := List.cons_eq_cons.mp whole
      exact .aside one (ih others)

/-- To leave seats is to make no request. -/
theorem leaves (seats : List Seat) : Prompt (seats.map .leaves) :=
  of_aside (List.forall_mem_map.mpr fun _ _ => trivial)

end Prompt

end Dealing

namespace Environment

/-- An environment after a dealing. -/
def deal (environment : Environment) : Dealing → Environment
  | .asks request => (environment.makeRequest request).2
  | .discards key => { environment with desk := environment.desk.discard key }
  | .leaves seat => environment.leave seat
  | .answers key decision =>
    { environment with desk := (environment.desk.submit key decision).2 }
  | .tells event => environment.publish event

/-- An environment after dealings. -/
def dealAll (environment : Environment) (dealings : List Dealing) : Environment :=
  dealings.foldl deal environment

/-- Two lists of dealings are dealt with one after the other. -/
theorem dealAll_append (environment : Environment) (first second : List Dealing) :
    environment.dealAll (first ++ second) = (environment.dealAll first).dealAll second :=
  List.foldl_append

/-- The same lies on the desk and has been published, at the same states of the desk. -/
structure Matches (first second : Environment) : Prop where
  desk : first.desk = second.desk
  publications : first.publications = second.publications

/-- What dealings leave depends on the desk and the publications before them alone. -/
theorem Matches.dealAll {environment other : Environment} (same : environment.Matches other)
    (dealings : List Dealing) :
    (environment.dealAll dealings).Matches (other.dealAll dealings) := by
  induction dealings generalizing environment other with
  | nil => exact same
  | cons dealing rest ih =>
    refine ih ?_
    cases dealing with
    | asks request =>
      refine ⟨?_, ?_⟩
      · rw [deal, deal, desk_makeRequest, desk_makeRequest, same.desk]
      · rw [deal, deal, publications_makeRequest, publications_makeRequest, same.publications]
    | discards | leaves | answers =>
      exact ⟨by simp only [deal, leave, same.desk], same.publications⟩
    | tells => exact ⟨same.desk, by simp only [deal, publish, same.desk, same.publications]⟩

/-- What is done in an environment consists of dealings, whatever its channel. -/
structure Deals (environment : Environment) (act : Environment → Environment × A)
    (dealings : List Dealing) : Prop
    extends (act environment).1.Matches (environment.dealAll dealings) where
  prompt : Dealing.Prompt dealings
  channel : ∀ channel, act { environment with channel } =
    ({ (act environment).1 with channel := channel.publishAll (Dealing.events dealings) },
      (act environment).2)

namespace Deals

variable {environment : Environment} {act : Environment → Environment × A}
  {dealings : List Dealing}

/-- What does the same consists of the same dealings. -/
theorem congr {act' : Environment → Environment × A} (deals : environment.Deals act' dealings)
    (same : ∀ channel, act { environment with channel } = act' { environment with channel }) :
    environment.Deals act dealings := by
  have here : act environment = act' environment := same environment.channel
  refine ⟨?_, deals.prompt, fun channel => ?_⟩
  · rw [here]
    exact deals.toMatches
  · rw [same, here, deals.channel]

/-- What does nothing at the desk, publishes nothing and does not touch the channel. -/
theorem quiet (same : (act environment).1.Matches environment)
    (channel : ∀ channel, act { environment with channel } =
      ({ (act environment).1 with channel }, (act environment).2)) :
    environment.Deals act [] := ⟨same, .nil, channel⟩

/-- First one thing, then another. -/
theorem bind (next : Environment × A → Environment × B) {others : List Dealing}
    (begins : environment.Deals act dealings)
    (goesOn : (act environment).1.Deals (fun later => next (later, (act environment).2)) others) :
    environment.Deals (fun environment => next (act environment)) (dealings ++ others) := by
  have carried := begins.toMatches.dealAll others
  refine ⟨⟨?_, ?_⟩, begins.prompt.append goesOn.prompt, fun channel => ?_⟩
  · rw [goesOn.desk, dealAll_append, carried.desk]
  · rw [goesOn.publications, dealAll_append, carried.publications]
  · rw [begins.channel, goesOn.channel, Dealing.events_append, Channel.publishAll_append]

end Deals

/-! ## Single operations -/

variable (environment : Environment)

/-- To begin a call does not depend on the channel, and leaves it as it is. -/
theorem beginCall_channel (registration : Registration) (input : Value) (limit : Option Nat)
    (channel : Channel) :
    ({ environment with channel } : Environment).beginCall registration input limit =
      ((environment.beginCall registration input limit).1,
        { (environment.beginCall registration input limit).2 with channel }) := by
  unfold beginCall record
  dsimp only
  cases (environment.actions.call registration input).2.1 <;>
    cases (environment.actions.call registration input).1 <;> cases limit <;> rfl

/-- To record the end of a call does not depend on the channel, and leaves it as it is. -/
theorem recordEnd_channel (call : Call) (callEnd : CallEnd) (channel : Channel) :
    ({ environment with channel } : Environment).recordEnd call callEnd =
      { environment.recordEnd call callEnd with channel } := by
  unfold recordEnd record
  split <;> cases call.recordedAs <;> rfl

/-- To set a limit does not depend on the channel, and leaves it as it is. -/
theorem setLimit_channel (limit : Option Nat) (channel : Channel) :
    ({ environment with channel } : Environment).setLimit limit =
      ((environment.setLimit limit).1, { (environment.setLimit limit).2 with channel }) := by
  cases limit <;> rfl

/-- To look for a decision is at most to discard the request under the key. -/
theorem lookForMail_cases (seat : Seat) (deadline : Option Alarm) :
    (∃ mail, ∀ channel, ({ environment with channel } : Environment).lookForMail seat deadline =
      (mail, { environment with channel })) ∨
    ∀ channel, ({ environment with channel } : Environment).lookForMail seat deadline =
      (.received (some .timeout),
        { environment with channel, desk := environment.desk.discard seat.key }) := by
  cases letter : environment.desk.letter seat.ticket with
  | answered decision =>
    refine .inl ⟨.received (some decision), fun channel => ?_⟩
    unfold lookForMail
    simp only [letter]
  | abandoned | closed =>
    refine .inl ⟨.received none, fun channel => ?_⟩
    unfold lookForMail
    simp only [letter]
  | awaited =>
    cases rung : deadline.any environment.hasRung with
    | false =>
      refine .inl ⟨.waiting deadline, fun channel => ?_⟩
      have same : deadline.any ({ environment with channel } : Environment).hasRung = false := rung
      unfold lookForMail
      simp only [letter, same, Bool.false_eq_true, if_false]
    | true =>
      have expires : ∀ channel,
          ({ environment with channel } : Environment).lookForMail seat deadline =
            ({ environment with channel } : Environment).expire seat := by
        intro channel
        have same : deadline.any ({ environment with channel } : Environment).hasRung = true := rung
        unfold lookForMail
        simp only [letter, same, if_true]
      cases found : environment.desk.find? seat.key with
      | none => exact .inl ⟨_, fun channel => (expires channel).trans (expire_of_missing found)⟩
      | some entry => exact .inr fun channel => (expires channel).trans (expire_of_find? found)

/-- To lay a request on the desk does not depend on the channel, and leaves it as it is. -/
theorem makeRequest_channel (request : Request) (channel : Channel) :
    ({ environment with channel } : Environment).makeRequest request =
      ((environment.makeRequest request).1,
        { (environment.makeRequest request).2 with channel }) := by
  unfold makeRequest
  dsimp only
  split <;> rfl

/-- A request is laid on the desk, then announced. -/
theorem deals_review (request : Request) : environment.Deals
    (fun environment => ((environment.makeRequest request).2.publish (.reviewRequested request),
      (environment.makeRequest request).1))
    [.asks request, .announces request] where
  desk := rfl
  publications := rfl
  prompt := .asks request .nil
  channel channel := by
    have made : (environment.makeRequest request).2.channel = environment.channel := by
      have same := environment.makeRequest_channel request environment.channel
      exact congrArg (·.2.channel) same
    dsimp only
    rw [makeRequest_channel]
    rfl

end Environment

/-! ## What lies on the desk when an event is published -/

/-- A new request is what is found under its key. -/
theorem Desk.find?_sitDown (desk : Desk) (request : Request) :
    (desk.sitDown request).2.find? request.key =
      some ⟨request, (desk.sitDown request).1.ticket⟩ := by
  have cleared : (desk.without request.key).find? request.key = none := by
    rw [find?_eq_none_iff]
    exact fun entry member => ((mem_without desk request.key entry).mp member).2
  have only : [(⟨request, desk.letters.length⟩ : OpenRequest)].find? (·.key == request.key) =
      some ⟨request, desk.letters.length⟩ := by
    simp [OpenRequest.key]
  rw [find?] at cleared
  rw [find?, sitDown, List.find?_append, cleared, only]
  rfl

/-- Whoever hears of a request finds this very request under its key, and if he answers it at once
he is heard. -/
def Publication.Timely (publication : Publication) : Prop :=
  ∀ request, publication.event = .reviewRequested request →
    (∃ ticket, publication.desk.find? request.key = some ⟨request, ticket⟩) ∧
    ∀ decision, (publication.desk.submit request.key decision).1 = .delivered

/-- A request that has just been laid on the desk is announced in time. -/
theorem Desk.timely_sitDown (desk : Desk) (request : Request) :
    Publication.Timely ⟨.reviewRequested request, (desk.sitDown request).2⟩ := by
  rintro other same
  obtain rfl : request = other := Event.reviewRequested.inj same
  have laid := desk.find?_sitDown request
  refine ⟨⟨_, laid⟩, fun decision => ?_⟩
  rw [Desk.submit_of_find? laid, Desk.send_delivered_iff, Desk.letter_without]
  exact desk.letter_sitDown_self request

/-- What announces no request is published in time. -/
theorem Dealing.Aside.timely {event : Event} (aside : (Dealing.tells event).Aside) (desk : Desk) :
    Publication.Timely ⟨event, desk⟩ := by
  rintro request rfl
  exact aside.elim

/-- The publications of dealings come one after another to those before them: each event has its
own, and where every request is announced as soon as it lies on the desk all are made in time. -/
theorem Environment.publications_dealAll (environment : Environment) {dealings : List Dealing}
    (prompt : Dealing.Prompt dealings) :
    ∃ news, (environment.dealAll dealings).publications = news ++ environment.publications ∧
      news.map Publication.event = (Dealing.events dealings).reverse ∧
      ∀ publication ∈ news, publication.Timely := by
  induction prompt generalizing environment with
  | nil => exact ⟨[], rfl, rfl, by simp⟩
  | @asks request rest _ ih =>
    let made := (environment.makeRequest request).2
    obtain ⟨news, come, told, timely⟩ := ih (made.publish (.reviewRequested request))
    have first : Publication.Timely ⟨.reviewRequested request, made.desk⟩ := by
      rw [environment.desk_makeRequest]
      exact environment.desk.timely_sitDown request
    have before : (made.publish (.reviewRequested request)).publications =
        ⟨.reviewRequested request, made.desk⟩ :: environment.publications := by
      rw [publish, environment.publications_makeRequest]
    refine ⟨news ++ [⟨.reviewRequested request, made.desk⟩], ?_, ?_, ?_⟩
    · rw [List.append_assoc, List.singleton_append, ← before]
      exact come
    · rw [List.map_append, told]
      exact (List.reverse_cons ..).symm
    · exact List.forall_mem_append.mpr ⟨timely, by simpa using first⟩
  | @aside dealing rest aside _ ih =>
    obtain ⟨news, come, told, timely⟩ := ih (environment.deal dealing)
    cases dealing with
    | asks => exact aside.elim
    | discards | leaves | answers => exact ⟨news, come, told, timely⟩
    | tells event =>
      refine ⟨news ++ [⟨event, environment.desk⟩], ?_, ?_, ?_⟩
      · rw [List.append_assoc]
        exact come
      · rw [List.map_append, told]
        exact (List.reverse_cons ..).symm
      · exact List.forall_mem_append.mpr ⟨timely, by simpa using aside.timely environment.desk⟩

/-! ## Rules -/

/-- The dealings that rules admit. Nothing is told but requests. -/
def Rules.Admits (rules : Rules) : Dealing → Prop
  | .asks request | .tells (.reviewRequested request) => rules.asks request.key
  | .discards key => rules.asks key
  | .leaves seat => rules.asks seat.key
  | .answers _ _ | .tells (.runStarted _ _) | .tells (.runFinished _ _ _) => False

/-- Prompt dealings that rules admit announce their requests and nothing else. -/
theorem Rules.events_of_admits {rules : Rules} {dealings : List Dealing}
    (prompt : Dealing.Prompt dealings)
    (admitted : ∀ dealing ∈ dealings, rules.Admits dealing) :
    Dealing.events dealings = (Dealing.requests dealings).map .reviewRequested := by
  induction prompt with
  | nil => rfl
  | asks request _ ih =>
    have others := ih fun dealing among =>
      admitted dealing (List.mem_cons_of_mem _ (List.mem_cons_of_mem _ among))
    exact congrArg (Event.reviewRequested request :: ·) others
  | @aside dealing rest aside _ ih =>
    obtain ⟨first, later⟩ := List.forall_mem_cons.mp admitted
    have others := ih later
    cases dealing with
    | asks => exact aside.elim
    | discards | leaves => exact others
    | answers => exact first.elim
    | tells event =>
      cases event with
      | reviewRequested => exact aside.elim
      | runStarted | runFinished => exact first.elim

/-- The requests of dealings that rules admit are made under keys that they admit. -/
theorem Rules.asks_of_admits {rules : Rules} {dealings : List Dealing}
    (admitted : ∀ dealing ∈ dealings, rules.Admits dealing) :
    ∀ request ∈ Dealing.requests dealings, rules.asks request.key := by
  intro request made
  obtain ⟨dealing, among, asks⟩ := List.mem_filterMap.mp made
  cases dealing with
  | asks other =>
    obtain rfl := Option.some.inj asks
    exact admitted _ among
  | discards | leaves | answers | tells => nomatch asks

/-- What is done consists of dealings that rules admit. -/
def Environment.DealsBy (rules : Rules) (environment : Environment)
    (act : Environment → Environment × A) : Prop :=
  ∃ dealings, environment.Deals act dealings ∧ ∀ dealing ∈ dealings, rules.Admits dealing

namespace Environment.DealsBy

variable {rules : Rules} {environment : Environment} {act : Environment → Environment × A}

/-- What deals by rules deals. -/
theorem exists_deals (deals : environment.DealsBy rules act) :
    ∃ dealings, environment.Deals act dealings := by
  obtain ⟨dealings, deals, -⟩ := deals
  exact ⟨dealings, deals⟩

/-- What does the same deals by the same rules. -/
theorem congr (act' : Environment → Environment × A)
    (same : ∀ channel, act { environment with channel } = act' { environment with channel })
    (deals : environment.DealsBy rules act') : environment.DealsBy rules act := by
  obtain ⟨dealings, deals, admitted⟩ := deals
  exact ⟨dealings, deals.congr same, admitted⟩

/-- What does nothing at the desk and publishes nothing deals by any rules. -/
theorem quiet (same : (act environment).1.Matches environment)
    (channel : ∀ channel, act { environment with channel } =
      ({ (act environment).1 with channel }, (act environment).2)) :
    environment.DealsBy rules act := ⟨[], .quiet same channel, by simp⟩

/-- A single dealing that rules admit. -/
theorem one (dealing : Dealing) (admitted : rules.Admits dealing)
    (deals : environment.Deals act [dealing]) : environment.DealsBy rules act :=
  ⟨[dealing], deals, by simpa using admitted⟩

/-- First one thing by the rules, then another. -/
theorem bind (next : Environment × A → Environment × B) (begins : environment.DealsBy rules act)
    (goesOn : (act environment).1.DealsBy rules
      fun later => next (later, (act environment).2)) :
    environment.DealsBy rules fun environment => next (act environment) := by
  obtain ⟨dealings, begins, admitted⟩ := begins
  obtain ⟨others, goesOn, alsoAdmitted⟩ := goesOn
  exact ⟨dealings ++ others, begins.bind next goesOn,
    List.forall_mem_append.mpr ⟨admitted, alsoAdmitted⟩⟩

/-- First something is done without dealings. -/
theorem after {op : Environment → Environment} (same : (op environment).Matches environment)
    (channel : ∀ channel, op { environment with channel } = { op environment with channel })
    (goesOn : (op environment).DealsBy rules act) :
    environment.DealsBy rules fun environment => act (op environment) := by
  have begins : environment.DealsBy rules fun environment => (op environment, ()) :=
    quiet same fun other => by rw [channel]
  exact begins.bind (fun result => act result.1) goesOn

end Environment.DealsBy

section Turns

variable {rules : Rules}

/-- A seat is left as soon as the body has ended. -/
theorem Activity.deals_hold (environment : Environment) (seat : Seat) (asks : rules.asks seat.key)
    (body : Activity) :
    environment.DealsBy rules fun environment => body.hold seat environment := by
  cases body with
  | ended outcome =>
    exact .one (.leaves seat) asks ⟨⟨rfl, rfl⟩, .one trivial, fun _ => rfl⟩
  | calling | seated | awaiting | together => exact .quiet ⟨rfl, rfl⟩ fun _ => rfl

/-- A call that has ended is followed by the rest of its process. -/
theorem Activity.deals_calling {call : Call} {next : CallEnd → Process}
    (later : ∀ callEnd environment,
      Environment.DealsBy rules environment fun environment => (next callEnd).start environment)
    (environment : Environment) : environment.DealsBy rules
      fun environment => (Activity.calling call next).resume environment := by
  cases ended : environment.callEnd? call with
  | none =>
    have waits : ∀ channel, (Activity.calling call next).resume { environment with channel } =
        ({ environment with channel }, .calling call next) := by
      intro channel
      have same : ({ environment with channel } : Environment).callEnd? call = none := ended
      rw [Activity.resume, same]
    exact .congr (fun environment => (environment, .calling call next)) waits
      (.quiet ⟨rfl, rfl⟩ fun _ => rfl)
  | some callEnd =>
    have goesOn : ∀ channel, (Activity.calling call next).resume { environment with channel } =
        (next callEnd).start
          (({ environment with channel } : Environment).recordEnd call callEnd) := by
      intro channel
      have same : ({ environment with channel } : Environment).callEnd? call = some callEnd := ended
      rw [Activity.resume, same]
    refine .congr (fun environment => (next callEnd).start (environment.recordEnd call callEnd))
      goesOn ?_
    exact .after ⟨environment.desk_recordEnd call callEnd,
        environment.publications_recordEnd call callEnd⟩
      (fun channel => environment.recordEnd_channel call callEnd channel) (later callEnd _)

/-- To start to wait is to set the limit and look for a decision at once. -/
theorem Process.start_await (environment : Environment) (seat : Seat) (limit : Option Nat)
    (next : Option Decision → Process) :
    (Process.await seat limit next).start environment =
      (Activity.awaiting seat (environment.setLimit limit).1 next).resume
        (environment.setLimit limit).2 := by
  rw [Process.start, Activity.resume]

/-- When a decision has come the rest of the process follows. -/
theorem Activity.deals_awaiting {seat : Seat} (deadline : Option Alarm)
    {next : Option Decision → Process} (asks : rules.asks seat.key)
    (later : ∀ decision environment,
      Environment.DealsBy rules environment fun environment => (next decision).start environment)
    (environment : Environment) : environment.DealsBy rules
      fun environment => (Activity.awaiting seat deadline next).resume environment := by
  rcases environment.lookForMail_cases seat deadline with ⟨mail, looks⟩ | expires
  · cases mail with
    | waiting deadline' =>
      refine .congr (fun environment => (environment, .awaiting seat deadline' next)) ?_
        (.quiet ⟨rfl, rfl⟩ fun _ => rfl)
      intro channel
      rw [Activity.resume, looks]
    | received decision =>
      refine .congr (fun environment => (next decision).start environment) ?_ (later decision _)
      intro channel
      rw [Activity.resume, looks]
  · have discards : environment.DealsBy rules fun environment =>
        ({ environment with desk := environment.desk.discard seat.key }, ()) :=
      .one (.discards seat.key) asks ⟨⟨rfl, rfl⟩, .one trivial, fun _ => rfl⟩
    refine .congr _ ?_ (discards.bind (fun result => (next (some .timeout)).start result.1)
      (later (some .timeout) _))
    intro channel
    rw [Activity.resume, expires]

/-- When all members have ended, what follows them begins. -/
theorem Activity.deals_join {members : List Activity} {next : List Outcome → Process}
    (later : ∀ outcomes, (∀ outcome ∈ outcomes, rules.allows outcome) → ∀ environment,
      Environment.DealsBy rules environment fun environment => (next outcomes).start environment)
    (each : ∀ member ∈ members, member.Obeys rules) (environment : Environment) :
    environment.DealsBy rules fun environment => match outcomes? members with
      | some outcomes => (next outcomes).start environment
      | none => (environment, .together members next) := by
  cases all : outcomes? members with
  | none => exact .quiet ⟨rfl, rfl⟩ fun _ => rfl
  | some outcomes =>
    obtain rfl := outcomes?_eq_some.mp all
    refine later outcomes (fun outcome member => ?_) environment
    cases each _ (List.mem_map_of_mem member) with
    | ended allowed => exact allowed

/-- Members that do something one after another. -/
theorem Environment.DealsBy.all {M : Type} {act : M → Environment → Environment × Activity}
    {all : Environment → List M → Environment × List Activity}
    (nil : ∀ environment, all environment [] = (environment, []))
    (cons : ∀ environment member rest, all environment (member :: rest) =
      ((all (act member environment).1 rest).1,
        (act member environment).2 :: (all (act member environment).1 rest).2))
    {members : List M}
    (each : ∀ member ∈ members, ∀ environment, Environment.DealsBy rules environment (act member))
    (environment : Environment) :
    environment.DealsBy rules fun environment => all environment members := by
  induction members generalizing environment with
  | nil =>
    exact .congr (fun environment => (environment, [])) (fun _ => nil _) (.quiet ⟨rfl, rfl⟩ fun _ => rfl)
  | cons member rest ih =>
    have first := each member List.mem_cons_self environment
    have others := ih (fun other among => each other (List.mem_cons_of_mem _ among))
      (act member environment).1
    refine .congr _ (fun _ => cons ..) (first.bind (fun result => ((all result.1 rest).1,
        result.2 :: (all result.1 rest).2))
      (others.bind (fun result => (result.1, (act member environment).2 :: result.2))
        (.quiet ⟨rfl, rfl⟩ fun _ => rfl)))

/-- A process that obeys the rules deals by them when it is started. -/
theorem Process.Obeys.deals (free : ∀ action, ¬rules.registered action) {process : Process}
    (obeys : process.Obeys rules) (environment : Environment) :
    environment.DealsBy rules fun environment => process.start environment := by
  induction obeys generalizing environment with
  | settle allowed => exact .quiet ⟨rfl, rfl⟩ fun _ => rfl
  | warn tolerated _ ih =>
    rename_i warning next _
    refine .congr (fun environment => next.start (environment.warn warning)) ?_ ?_
    · exact fun channel => by rw [Process.start]
    · exact .after ⟨rfl, rfl⟩ (fun _ => rfl) (ih _)
  | @lookUp action next _ ih =>
    refine .congr (fun later => (next (environment.actions.find? action)).start later) ?_
      (ih _ (fun registered => absurd registered (free action)) environment)
    exact fun channel => by rw [Process.start]
  | call registration input limit later ih =>
    rename_i next
    have begins : environment.DealsBy rules fun environment =>
        (environment.beginCall registration input limit).swap :=
      .quiet ⟨environment.desk_beginCall registration input limit,
          environment.publications_beginCall registration input limit⟩
        fun channel => by rw [environment.beginCall_channel]; rfl
    refine .congr _ ?_ (begins.bind (fun result => (Activity.calling result.2 next).resume result.1)
      (Activity.deals_calling ih _))
    exact fun channel => by rw [start_call]; rfl
  | review asks later ih =>
    rename_i request body
    have sits : environment.DealsBy rules fun environment =>
        ((environment.makeRequest request).2.publish (.reviewRequested request),
          (environment.makeRequest request).1) :=
      ⟨_, environment.deals_review request, by simpa [Rules.Admits] using asks⟩
    have holds := (ih (environment.makeRequest request).1 rfl
      ((environment.makeRequest request).2.publish (.reviewRequested request))).bind
      (fun result => result.2.hold (environment.makeRequest request).1 result.1)
      (Activity.deals_hold _ _ asks _)
    refine .congr _ ?_ (sits.bind (fun result =>
      ((body result.2).start result.1).2.hold result.2 ((body result.2).start result.1).1) holds)
    exact fun channel => by rw [Process.start]
  | await limit asks later ih =>
    rename_i seat next
    have begins : environment.DealsBy rules fun environment =>
        (environment.setLimit limit).swap :=
      .quiet ⟨environment.desk_setLimit limit, environment.publications_setLimit limit⟩
        fun channel => by rw [environment.setLimit_channel]; rfl
    refine .congr _ ?_ (begins.bind
      (fun result => (Activity.awaiting seat result.2 next).resume result.1)
      (Activity.deals_awaiting _ asks ih _))
    exact fun channel => by rw [start_await]; rfl
  | together each later ihEach ihLater =>
    rename_i members next
    have obey := ((rules.keeps_true free).startAll
      (fun member among => (each member among).start (rules.keeps_true free)) environment []
      trivial).1
    have starts : environment.DealsBy rules fun environment => startAll environment members :=
      .all (fun _ => startAll.eq_1 ..) (fun _ _ _ => startAll.eq_2 ..) ihEach environment
    refine .congr _ ?_ (starts.bind
      (fun result => match Activity.outcomes? result.2 with
        | some outcomes => (next outcomes).start result.1
        | none => (result.1, .together result.2 next))
      (Activity.deals_join ihLater obey _))
    exact fun channel => (Process.start.eq_def ..).trans rfl

/-- What is left of a process that obeys the rules deals by them when it goes on. -/
theorem Activity.Obeys.deals_resume (free : ∀ action, ¬rules.registered action)
    {activity : Activity} (obeys : activity.Obeys rules) (environment : Environment) :
    environment.DealsBy rules fun environment => activity.resume environment := by
  induction obeys generalizing environment with
  | ended allowed => exact .quiet ⟨rfl, rfl⟩ fun _ => rfl
  | calling call later =>
    exact deals_calling (fun callEnd => (later callEnd).deals free) environment
  | @seated seat body asks _ ih =>
    refine .congr _ ?_ ((ih environment).bind (fun result => result.2.hold seat result.1)
      (deals_hold _ _ asks _))
    exact fun channel => by rw [Activity.resume]
  | awaiting deadline asks later =>
    exact deals_awaiting deadline asks (fun decision => (later decision).deals free) environment
  | @together members next each later ih =>
    have obey := ((rules.keeps_true free).resumeAll
      (fun member among => (each member among).resume (rules.keeps_true free)) environment []
      trivial).1
    have goesOn : environment.DealsBy rules fun environment => resumeAll environment members :=
      .all (fun _ => resumeAll.eq_1 ..) (fun _ _ _ => resumeAll.eq_2 ..) ih environment
    refine .congr _ ?_ (goesOn.bind
      (fun result => match outcomes? result.2 with
        | some outcomes => (next outcomes).start result.1
        | none => (result.1, .together result.2 next))
      (deals_join (fun outcomes allowed => (later outcomes allowed).deals free) obey _))
    exact fun channel => (Activity.resume.eq_def ..).trans rfl

/-- To drop what is left of a process is to leave its seats. -/
theorem Activity.deals_drop (activity : Activity) (environment : Environment) :
    ∃ seats : List Seat, environment.Deals (fun environment => (activity.drop environment, ()))
      (seats.map .leaves) := by
  have obeys := activity.obeys_free
  induction obeys generalizing environment with
  | ended => exact ⟨[], .quiet ⟨rfl, rfl⟩ fun _ => rfl⟩
  | calling call =>
    refine ⟨[], .quiet ⟨environment.desk_record _ _, environment.publications_record _ _⟩
      fun channel => ?_⟩
    rw [Activity.drop, Activity.drop]
    unfold Environment.record
    cases call.recordedAs <;> rfl
  | @seated seat body _ _ ih =>
    obtain ⟨seats, drops⟩ := ih environment
    have leaves : (body.drop environment).Deals (fun environment => (environment.leave seat, ()))
        ([seat].map .leaves) := ⟨⟨rfl, rfl⟩, .leaves [seat], fun _ => rfl⟩
    have both := drops.bind (fun result => (result.1.leave seat, ())) leaves
    rw [← List.map_append] at both
    exact ⟨seats ++ [seat], both.congr fun channel => by rw [Activity.drop]⟩
  | awaiting => exact ⟨[], .quiet ⟨rfl, rfl⟩ fun _ => rfl⟩
  | @together members _ _ _ ih =>
    have all : ∃ seats : List Seat,
        environment.Deals (fun environment => (dropAll environment members, ()))
          (seats.map .leaves) := by
      clear * - ih
      induction members generalizing environment with
      | nil => exact ⟨[], .quiet ⟨rfl, rfl⟩ fun _ => rfl⟩
      | cons member rest ihRest =>
        obtain ⟨seats, first⟩ := ih member List.mem_cons_self environment
        obtain ⟨others, further⟩ := ihRest
          (fun other among => ih other (List.mem_cons_of_mem _ among)) (member.drop environment)
        have both := first.bind (fun result => (dropAll result.1 rest, ())) further
        rw [← List.map_append] at both
        exact ⟨seats ++ others, both⟩
    obtain ⟨seats, drops⟩ := all
    exact ⟨seats, drops.congr fun channel => by rw [Activity.drop]⟩

end Turns

end Workflow
