import Mathlib.Data.List.Perm.Subperm
import Workflow.Proofs.Host.Dealings
import Workflow.Proofs.Host.Isolation
import Workflow.Proofs.Review.Seats

/-!
# Who approves every request

Somebody subscribes to the events of an engine, then reads one after the other and approves each
request of which they tell. What happens on the host comes in between at any time. Such an approver
learns of requests from the events alone, so a request whose event is lost is never approved: the
channel keeps a limited number of events, and a single turn can tell more. As long as no event is
lost, whoever waits for the next one has left no request on the desk.
-/
namespace Workflow

/-! ## Requests and their events -/

/-- The request of which an event tells. -/
def Event.request? : Event → Option Request
  | .reviewRequested request => some request
  | _ => none

/-- The requests of which events tell. -/
def Event.requests (events : List Event) : List Request := events.filterMap Event.request?

/-- The request of the first event comes first. -/
theorem Event.requests_cons (event : Event) (rest : List Event) :
    requests (event :: rest) = event.request?.toList ++ requests rest := by
  cases event <;> rfl

/-- Every request that is made is told. -/
theorem Dealing.Prompt.told {dealings : List Dealing} (prompt : Prompt dealings) :
    ∀ request ∈ requests dealings, request ∈ Event.requests (events dealings) := by
  induction prompt with
  | nil => exact fun request made => absurd made List.not_mem_nil
  | asks other others ih =>
    intro request made
    rcases List.mem_cons.mp made with rfl | later
    · exact List.mem_cons_self
    · exact List.mem_cons_of_mem other (ih request later)
  | @aside dealing rest aside others ih =>
    intro request made
    cases dealing with
    | asks => exact aside.elim
    | discards | leaves | answers => exact ih request made
    | tells event =>
      have later := ih request made
      change request ∈ Event.requests (event :: events rest)
      rw [Event.requests_cons]
      exact List.mem_append_right _ later

namespace Environment

/-- A request that lies on a desk after a dealing lay there before or has just been made. -/
theorem mem_deal {environment : Environment} {dealing : Dealing} {entry : OpenRequest}
    (lies : entry ∈ (environment.deal dealing).desk.entries) :
    entry ∈ environment.desk.entries ∨ dealing = .asks entry.request := by
  cases dealing with
  | asks request =>
    rw [deal, desk_makeRequest, Desk.mem_sitDown] at lies
    rcases lies with ⟨earlier, -⟩ | rfl
    · exact .inl earlier
    · exact .inr rfl
  | discards key => exact .inl ((Desk.mem_discard _ key entry).mp lies).1
  | leaves seat => exact .inl ((Desk.mem_standUp _ seat entry).mp lies).1
  | answers key decision =>
    rw [deal, Desk.entries_submit] at lies
    exact .inl ((Desk.mem_without _ key entry).mp lies).1
  | tells event => exact .inl lies

/-- Dealings leave at most one request under each key. -/
theorem distinct_deal {environment : Environment}
    (distinct : (environment.desk.entries.map OpenRequest.key).Nodup) (dealing : Dealing) :
    ((environment.deal dealing).desk.entries.map OpenRequest.key).Nodup := by
  cases dealing with
  | asks request =>
    rw [deal, desk_makeRequest]
    exact Desk.distinct_sitDown distinct request
  | discards key =>
    rw [deal, Desk.entries_discard]
    exact Desk.distinct_without distinct key
  | leaves seat =>
    rw [deal, desk_leave, Desk.entries_standUp]
    exact Desk.distinct_without distinct seat.key
  | answers key decision =>
    rw [deal, Desk.entries_submit]
    exact Desk.distinct_without distinct key
  | tells event => exact distinct

/-- A request that lies on a desk after dealings lay there before or was made in one of them. -/
theorem mem_dealAll {environment : Environment} {dealings : List Dealing} {entry : OpenRequest}
    (lies : entry ∈ (environment.dealAll dealings).desk.entries) :
    entry ∈ environment.desk.entries ∨ entry.request ∈ Dealing.requests dealings := by
  induction dealings generalizing environment with
  | nil => exact .inl lies
  | cons dealing rest ih =>
    rcases ih lies with earlier | made
    · rcases mem_deal earlier with here | rfl
      · exact .inl here
      · exact .inr List.mem_cons_self
    · rw [← List.singleton_append, Dealing.requests_append]
      exact .inr (List.mem_append_right _ made)

/-- Any dealings leave at most one request under each key. -/
theorem distinct_dealAll {environment : Environment}
    (distinct : (environment.desk.entries.map OpenRequest.key).Nodup) (dealings : List Dealing) :
    ((environment.dealAll dealings).desk.entries.map OpenRequest.key).Nodup := by
  induction dealings generalizing environment with
  | nil => exact distinct
  | cons dealing rest ih => exact ih (distinct_deal distinct dealing)

end Environment

namespace CommandLine

/-! ## Approvers -/

/-- Somebody who approves every request on the desk of the first engine of which its events tell. -/
structure Approver where
  host : Host
  /-- How far the events have been read. -/
  reader : Receiver
  /-- The request of which the last event told, until it is approved. -/
  hand : Option Request
  /-- The number of events that were reported as lost. -/
  lost : Nat

namespace Approver

/-- Begin to read the events. -/
def begin (host : Host) : Approver := ⟨host, (host.engine 0).channel.subscribe, none, 0⟩

/-- What comes next: an event or the news of lost ones, unless there is a request to approve. -/
def next? (approver : Approver) : Option (Channel.Notice × Receiver) :=
  match approver.hand with
  | some _ => none
  | none => (approver.host.engine 0).channel.next? approver.reader

/-- Take note of an event or of lost ones. -/
def notice (approver : Approver) (reader : Receiver) : Channel.Notice → Approver
  | .lost count => { approver with
      host := approver.host.warn (.eventsLost count), reader, lost := approver.lost + count }
  | .event event => { approver with reader, hand := event.request? }

/-- Read the next event, if there is one. -/
def listen (approver : Approver) : Approver :=
  match approver.next? with
  | some (notice, reader) => approver.notice reader notice
  | none => approver

/-- Approve the request of which the last event told. -/
def approve (approver : Approver) : Approver :=
  match approver.hand with
  | some request => { approver with
      host := approver.host.handIn 0 request.key .approve, hand := none }
  | none => approver

/-- Something that an approver does or that happens on the host. -/
inductive Move where
  | happens (incident : Host.Incident)
  | listens
  | approves

/-- An approver after a move. -/
def after (approver : Approver) : Move → Approver
  | .happens incident => { approver with host := approver.host.after incident }
  | .listens => approver.listen
  | .approves => approver.approve

/-- An approver after moves. -/
def afterAll (approver : Approver) (moves : List Move) : Approver := moves.foldl after approver

/-- There is nothing to approve and nothing to read. -/
def Waits (approver : Approver) : Prop :=
  approver.hand = none ∧ (approver.host.engine 0).channel.next? approver.reader = none

/-- The open requests. -/
def entries (approver : Approver) : List OpenRequest := (approver.host.engine 0).desk.entries

/-- The events that have been told account for every request on the desk: it is the one to be
approved, an event that has not been read yet tells of it, or it is among those whose events were
missed. -/
structure Accounts (approver : Approver) (capacity : Nat) (told : List Event)
    (missed : List Request) : Prop where
  inside : 0 < approver.host.engines.length
  channel : (approver.host.engine 0).channel = .telling capacity told
  read : approver.reader ≤ told.length
  /-- Not more requests were missed than events were lost. -/
  counted : missed.length ≤ approver.lost
  /-- Nothing is lost as long as there is room. -/
  room : told.length ≤ capacity → approver.lost = 0
  distinct : (approver.entries.map OpenRequest.key).Nodup
  known : ∀ entry ∈ approver.entries, entry.request ∈
    approver.hand.toList ++ Event.requests (told.drop approver.reader) ++ missed

namespace Accounts

variable {approver : Approver} {capacity : Nat} {told : List Event} {missed : List Request}

/-- Nothing has been told on a new engine, and its desk is empty. -/
theorem begin {host : Host} (inside : 0 < host.engines.length) {settings : Settings}
    {custom : List CustomExecutor} (fresh : host.engine 0 = .new settings custom) :
    (Approver.begin host).Accounts (Channel.ofBuffer settings.eventBuffer).capacity [] [] := by
  have channel : (host.engine 0).channel = .ofBuffer settings.eventBuffer := by rw [fresh]; rfl
  have desk : (host.engine 0).desk = .empty := by rw [fresh]; rfl
  refine ⟨inside, channel.trans (Channel.ofBuffer_eq_telling _), ?_, Nat.le_refl _, fun _ => rfl,
    ?_, ?_⟩
  · rw [Approver.begin, channel]
    exact Nat.le_refl _
  · rw [entries, Approver.begin, desk]
    exact List.nodup_nil
  · rw [entries, Approver.begin, desk]
    exact fun entry lies => absurd lies List.not_mem_nil

/-- Whatever happens on the host is accounted for by the events that it tells. -/
theorem happens (accounts : approver.Accounts capacity told missed) (incident : Host.Incident) :
    ∃ events, (approver.after (.happens incident)).Accounts capacity (told ++ events) missed := by
  obtain ⟨dealings, deals⟩ := approver.host.exists_deals accounts.inside incident
  have inside : 0 < (approver.host.after incident).engines.length := by
    rw [(approver.host.samePlans_after incident).length]
    exact accounts.inside
  have channel : ((approver.host.after incident).engine 0).channel =
      .telling capacity (told ++ Dealing.events dealings) := by
    rw [← Channel.publishAll_telling, ← accounts.channel]
    exact deals.channel_here inside
  have desk : ((approver.host.after incident).engine 0).desk = _ := deals.desk
  refine ⟨Dealing.events dealings, inside, channel, ?_, accounts.counted, ?_, ?_, ?_⟩
  · exact Nat.le_trans accounts.read (by simp)
  · exact fun enough => accounts.room (Nat.le_trans (by simp) enough)
  · rw [entries, after, desk]
    exact Environment.distinct_dealAll accounts.distinct dealings
  · intro entry lies
    rw [entries, after, desk] at lies
    rw [after, List.drop_append_of_le_length accounts.read, Event.requests, List.filterMap_append]
    rcases Environment.mem_dealAll lies with earlier | made
    · have known := accounts.known entry earlier
      simp only [List.mem_append] at known ⊢
      tauto
    · have unread := deals.prompt.told _ made
      simp only [List.mem_append]
      tauto

/-- As long as there is no request to be approved, those on the desk are told of or missed. -/
theorem known_of_free (accounts : approver.Accounts capacity told missed)
    (free : approver.hand = none) : ∀ entry ∈ approver.entries,
    entry.request ∈ Event.requests (told.drop approver.reader) ++ missed := by
  simpa [free] using accounts.known

/-- The requests whose events are lost are missed. -/
theorem loses (accounts : approver.Accounts capacity told missed) (free : approver.hand = none)
    {count : Nat} (behind : approver.reader < told.length - capacity)
    (lost : approver.reader + count = told.length - capacity) :
    (approver.notice (told.length - capacity) (.lost count)).Accounts capacity told
      (missed ++ Event.requests ((told.drop approver.reader).take count)) := by
  have parts : told.drop approver.reader =
      (told.drop approver.reader).take count ++ told.drop (told.length - capacity) := by
    rw [← lost, ← List.drop_drop, List.take_append_drop]
  have few : (Event.requests ((told.drop approver.reader).take count)).length ≤ count :=
    Nat.le_trans (List.length_filterMap_le ..) (List.length_take_le ..)
  refine ⟨accounts.inside, accounts.channel, Nat.sub_le .., ?_, ?_, accounts.distinct, ?_⟩
  · rw [List.length_append]
    exact Nat.add_le_add accounts.counted few
  · intro enough
    rw [Nat.sub_eq_zero_of_le enough] at behind
    exact absurd behind (Nat.not_lt_zero _)
  · intro entry lies
    have known := accounts.known_of_free free entry lies
    rw [parts, Event.requests, List.filterMap_append] at known
    simp only [List.mem_append, notice, free, Event.requests] at known ⊢
    tauto

/-- A request of which an event tells is taken into the hand. -/
theorem reads (accounts : approver.Accounts capacity told missed) (free : approver.hand = none)
    (waiting : approver.reader < told.length) :
    (approver.notice (approver.reader + 1) (.event told[approver.reader])).Accounts capacity told
      missed := by
  refine ⟨accounts.inside, accounts.channel, waiting, accounts.counted, accounts.room,
    accounts.distinct, ?_⟩
  intro entry lies
  have known := accounts.known_of_free free entry lies
  rw [List.drop_eq_getElem_cons waiting, Event.requests_cons] at known
  simpa [notice] using known

/-- Whether events are lost or one is read, the events account for the requests. -/
theorem listens (accounts : approver.Accounts capacity told missed) :
    ∃ missed', (approver.after .listens).Accounts capacity told missed' := by
  rw [Approver.after, listen]
  cases comes : approver.next? with
  | none => exact ⟨missed, accounts⟩
  | some news =>
    have free : approver.hand = none := by
      cases held : approver.hand with
      | none => rfl
      | some request => simp [next?, held] at comes
    rw [next?, free, accounts.channel] at comes
    rcases Nat.lt_or_ge approver.reader (told.length - capacity) with behind | kept
    · rw [Channel.next?_telling_lost behind] at comes
      obtain rfl := Option.some.inj comes
      exact ⟨_, accounts.loses free behind (Nat.add_sub_of_le (Nat.le_of_lt behind))⟩
    · rcases Nat.lt_or_ge approver.reader told.length with waiting | read
      · rw [Channel.next?_telling_event kept waiting] at comes
        obtain rfl := Option.some.inj comes
        exact ⟨missed, accounts.reads free waiting⟩
      · rw [Channel.next?_telling_eq_none_iff.mpr read] at comes
        cases comes

/-- What is approved does not lie on the desk any more. -/
theorem approves (accounts : approver.Accounts capacity told missed) :
    (approver.after .approves).Accounts capacity told missed := by
  cases held : approver.hand with
  | none =>
    have idle : approver.after .approves = approver := by simp [after, approve, held]
    rwa [idle]
  | some request =>
    have approves : approver.after .approves =
        ⟨approver.host.handIn 0 request.key .approve, approver.reader, none, approver.lost⟩ := by
      simp [after, approve, held]
    have deals := Host.deals_submits accounts.inside request.key .approve
    have inside : 0 < (approver.host.handIn 0 request.key .approve).engines.length :=
      accounts.inside.trans_eq
        (approver.host.samePlans_after (.submits 0 request.key .approve)).length.symm
    have channel : ((approver.host.handIn 0 request.key .approve).engine 0).channel =
        .telling capacity told := (deals.channel_here inside).trans accounts.channel
    have desk : ((approver.host.handIn 0 request.key .approve).engine 0).desk.entries =
        ((approver.host.engine 0).desk.without request.key).entries :=
      (congrArg Desk.entries deals.desk).trans (Desk.entries_submit ..)
    rw [approves]
    refine ⟨inside, channel, accounts.read, accounts.counted, accounts.room, ?_, ?_⟩
    · rw [entries, desk]
      exact Desk.distinct_without accounts.distinct request.key
    · intro entry lies
      rw [entries, desk] at lies
      obtain ⟨lay, otherKey⟩ := (Desk.mem_without _ request.key entry).mp lies
      have known := accounts.known entry lay
      have other : entry.request ≠ request := fun same => otherKey (congrArg Request.key same)
      simpa [held, other] using known

/-- Whatever an approver does and whatever happens, the events account for the requests. -/
theorem after (accounts : approver.Accounts capacity told missed) (move : Move) :
    ∃ told' missed', (approver.after move).Accounts capacity told' missed' := by
  cases move with
  | happens incident =>
    obtain ⟨events, accounts⟩ := accounts.happens incident
    exact ⟨told ++ events, missed, accounts⟩
  | listens =>
    obtain ⟨missed', accounts⟩ := accounts.listens
    exact ⟨told, missed', accounts⟩
  | approves => exact ⟨told, missed, accounts.approves⟩

/-- Any moves keep the events accounting for the requests. -/
theorem afterAll (accounts : approver.Accounts capacity told missed) (moves : List Move) :
    ∃ told' missed', (approver.afterAll moves).Accounts capacity told' missed' := by
  induction moves generalizing approver told missed with
  | nil => exact ⟨told, missed, accounts⟩
  | cons move rest ih =>
    obtain ⟨told', missed', accounts⟩ := accounts.after move
    exact ih accounts

/-- Somebody who waits has left only requests whose events were missed. -/
theorem length_le_of_waits (accounts : approver.Accounts capacity told missed)
    (waits : approver.Waits) :
    approver.entries.length ≤ approver.lost := by
  obtain ⟨free, nothing⟩ := waits
  rw [accounts.channel, Channel.next?_telling_eq_none_iff] at nothing
  have known : approver.entries.map OpenRequest.request ⊆ missed := by
    intro request among
    obtain ⟨entry, lies, rfl⟩ := List.mem_map.mp among
    simpa [free, List.drop_of_length_le nothing, Event.requests] using accounts.known entry lies
  have distinct : (approver.entries.map OpenRequest.request).Nodup := by
    refine List.Nodup.of_map Request.key ?_
    rw [List.map_map]
    exact accounts.distinct
  calc approver.entries.length = (approver.entries.map OpenRequest.request).length := by simp
    _ ≤ missed.length := (distinct.subperm known).length_le
    _ ≤ approver.lost := accounts.counted

/-- As long as there is room for all events, somebody who waits has approved all requests. -/
theorem nothing_left (accounts : approver.Accounts capacity told missed)
    (waits : approver.Waits)
    (enough : (approver.host.engine 0).channel.published ≤ capacity) : approver.entries = [] := by
  have few := accounts.length_le_of_waits waits
  rw [accounts.channel] at enough
  rw [accounts.room enough] at few
  exact List.length_eq_zero_iff.mp (Nat.le_zero.mp few)

end Accounts

/-- Somebody who waits has left no more requests on the desk than events were lost, and none at all
as long as the channel has had room for all events. -/
theorem requests_left {host : Host} (inside : 0 < host.engines.length) {settings : Settings}
    {custom : List CustomExecutor} (fresh : host.engine 0 = .new settings custom)
    (moves : List Move) (waits : ((begin host).afterAll moves).Waits) :
    ((begin host).afterAll moves).entries.length ≤ ((begin host).afterAll moves).lost ∧
    ((((begin host).afterAll moves).host.engine 0).channel.published ≤
        (Channel.ofBuffer settings.eventBuffer).capacity →
      ((begin host).afterAll moves).entries = []) := by
  obtain ⟨told, missed, accounts⟩ := (Accounts.begin inside fresh).afterAll moves
  exact ⟨accounts.length_le_of_waits waits, accounts.nothing_left waits⟩

/-- A run begins, its two events are read, and the request of which the second one tells is
approved. -/
def oneReview : List Move :=
  [.happens (.begins 0 "approval" "first" .null), .listens, .listens, .approves]

/-- The approver of one review waits afterwards, and has left no request. -/
theorem requests_left_answered :
    ((begin Host.office).afterAll oneReview).Waits ∧
      ((begin Host.office).afterAll oneReview).entries = [] := by
  have waits : ((begin Host.office).afterAll oneReview).Waits :=
    ⟨by decide +kernel, by decide +kernel⟩
  exact ⟨waits, (requests_left (by decide) rfl oneReview waits).2 (by decide +kernel)⟩

/-- A workflow in which two humans are asked at once. -/
def opinions : Definition where
  name := "opinions"
  description := none
  version := none
  trigger := .manual
  steps := [
    ⟨"both", .parallel, none, none, none, none, none, none, none, [
      ⟨"a", .humanInLoop, none, none, none, none, none, none, none, []⟩,
      ⟨"b", .humanInLoop, none, none, none, none, none, none, none, []⟩]⟩]
  onComplete := []
  onError := []

/-- Not everybody who waits has approved all requests: a buffer may be too small for the requests of
one turn. -/
theorem request_overlooked : ¬∀ (text : String) (settings : Settings),
    Settings.ofText text = .ok settings → ∀ (library : Library) (disk : Disk) (moves : List Move),
      ((begin (.new library disk [.new settings []])).afterAll moves).Waits →
        ((begin (.new library disk [.new settings []])).afterAll moves).entries = [] := by
  intro approves
  have read : Settings.ofText "[engine]\nevent_buffer = 1\n" =
      .ok { Settings.usual with eventBuffer := 1 } := by decide +kernel
  have none := approves _ _ read { Library.builtIn with definitions := [("opinions", opinions)] }
    (.empty []) [.happens (.executes 0 "opinions" "run" .null), .listens, .listens, .approves]
    ⟨by decide +kernel, by decide +kernel⟩
  exact absurd none (by decide +kernel)

end Approver

end CommandLine

end Workflow
