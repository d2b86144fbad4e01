import Mathlib.Data.List.Nodup
import Workflow.Review.Desk

/-!
# What becomes of requests and letter boxes

Everything that is done at a desk is told by two views of it: which requests lie on it, and what is
in each letter box. The lemmas say how each operation changes the two views. An operation that is
given a key finds requests by the key alone, so it touches the letter box of whatever request lies
there.
-/
namespace Workflow

namespace Desk

variable (desk : Desk) (key : ReviewKey) (ticket other : Ticket)

/-! ## Finding a request -/

/-- What is found under a key lies on the desk and has the key. -/
theorem of_find? {desk : Desk} {key : ReviewKey} {entry : OpenRequest}
    (found : desk.find? key = some entry) : entry ∈ desk.entries ∧ entry.key = key := by
  refine ⟨List.mem_of_find?_eq_some found, ?_⟩
  have fits := List.find?_some found
  exact beq_iff_eq.mp fits

/-- Nothing is found under a key that no request on the desk has. -/
theorem find?_eq_none_iff : desk.find? key = none ↔ ∀ entry ∈ desk.entries, entry.key ≠ key := by
  simp [find?, List.find?_eq_none]

/-- On a desk where no two requests have one key, each is found under its own. -/
theorem find?_of_mem {desk : Desk} {entry : OpenRequest}
    (distinct : (desk.entries.map OpenRequest.key).Nodup) (member : entry ∈ desk.entries) :
    desk.find? entry.key = some entry := by
  cases found : desk.find? entry.key with
  | none => exact absurd rfl ((find?_eq_none_iff desk entry.key).mp found entry member)
  | some first =>
    obtain ⟨lies, same⟩ := of_find? found
    rw [List.inj_on_of_nodup_map distinct lies member same]

/-! ## Letter boxes -/

/-- A letter that is put into one box leaves the others as they are. -/
theorem letter_setLetter_of_ne {ticket other : Ticket} (different : other ≠ ticket)
    (letter : Letter) : (desk.setLetter ticket letter).letter other = desk.letter other := by
  rw [Desk.letter, setLetter, List.getElem?_set_ne different.symm, ← Desk.letter]

/-- A letter that is put into a box lies in it. -/
theorem letter_setLetter_self {ticket : Ticket} (issued : ticket < desk.letters.length)
    (letter : Letter) : (desk.setLetter ticket letter).letter ticket = letter := by
  rw [Desk.letter, setLetter, List.getElem?_set_self issued, Option.getD_some]

/-- A box that is closed is closed, even if there was none. -/
theorem letter_close_self : (desk.setLetter ticket .closed).letter ticket = .closed := by
  by_cases issued : ticket < desk.letters.length
  · exact desk.letter_setLetter_self issued .closed
  · rw [Desk.letter, setLetter, List.getElem?_eq_none (by simpa using issued), Option.getD_none]

/-- A box into which somebody may look has been issued. -/
theorem issued_of_letter {desk : Desk} {ticket : Ticket} (open' : desk.letter ticket ≠ .closed) :
    ticket < desk.letters.length := by
  by_contra missing
  rw [letter, List.getElem?_eq_none (Nat.not_lt.mp missing)] at open'
  exact open' rfl

/-- A letter that is put into a box leaves the requests on the desk. -/
@[simp] theorem entries_setLetter (letter : Letter) :
    (desk.setLetter ticket letter).entries = desk.entries := rfl

/-- A letter that is put into a box issues none. -/
@[simp] theorem length_setLetter (letter : Letter) :
    (desk.setLetter ticket letter).letters.length = desk.letters.length := List.length_set

/-- To give up a box leaves the requests on the desk. -/
@[simp] theorem entries_abandon : (desk.abandon ticket).entries = desk.entries := by
  unfold abandon
  split <;> rfl

/-- To give up a box issues none. -/
@[simp] theorem length_abandon : (desk.abandon ticket).letters.length = desk.letters.length := by
  unfold abandon
  split
  · exact desk.length_setLetter ticket .abandoned
  · rfl

/-- A box that nobody awaits an answer in cannot be given up any more. -/
theorem abandon_of_ne {desk : Desk} {ticket : Ticket} (settled : desk.letter ticket ≠ .awaited) :
    desk.abandon ticket = desk := by
  unfold abandon
  split
  · contradiction
  · rfl

/-- To give up one box leaves the others as they are. -/
theorem letter_abandon_of_ne {ticket other : Ticket} (different : other ≠ ticket) :
    (desk.abandon ticket).letter other = desk.letter other := by
  unfold abandon
  split
  · exact desk.letter_setLetter_of_ne different .abandoned
  · rfl

/-- A box that is given up before an answer came stays without one. -/
theorem letter_abandon_self {desk : Desk} {ticket : Ticket}
    (awaited : desk.letter ticket = .awaited) :
    (desk.abandon ticket).letter ticket = .abandoned := by
  rw [abandon, awaited]
  exact desk.letter_setLetter_self (issued_of_letter (by simp [awaited])) .abandoned

/-! ## Taking requests off the desk -/

/-- Without a key there remain the requests under the other keys. -/
theorem mem_without (entry : OpenRequest) :
    entry ∈ (desk.without key).entries ↔ entry ∈ desk.entries ∧ entry.key ≠ key := by
  simp [without]

/-- To take requests off the desk leaves the boxes as they are. -/
@[simp] theorem letter_without : (desk.without key).letter ticket = desk.letter ticket := rfl

/-- A desk on which nothing has a key is the same without what is under it. -/
theorem without_of_find? {desk : Desk} {key : ReviewKey} (missing : desk.find? key = none) :
    desk.without key = desk := by
  have others := (desk.find?_eq_none_iff key).mp missing
  rw [without, List.filter_eq_self.mpr]
  intro entry member
  simpa using others entry member

/-- A request that is discarded is taken off the desk, and the others stay. -/
theorem entries_discard : (desk.discard key).entries = (desk.without key).entries := by
  cases found : desk.find? key with
  | some entry => rw [discard, found, entries_abandon]
  | none => rw [discard, found, without_of_find? found]

/-- Discarding the request under a key leaves those under the other keys. -/
theorem mem_discard (entry : OpenRequest) :
    entry ∈ (desk.discard key).entries ↔ entry ∈ desk.entries ∧ entry.key ≠ key := by
  rw [entries_discard, mem_without]

/-- To discard a request issues no box. -/
@[simp] theorem length_discard : (desk.discard key).letters.length = desk.letters.length := by
  unfold discard
  split
  · rw [length_abandon]
    rfl
  · rfl

/-- Discarding touches only the box of the request under the key. -/
theorem letter_discard_of_ne {key : ReviewKey} {other : Ticket}
    (untouched : ∀ entry ∈ desk.entries, entry.key = key → entry.ticket ≠ other) :
    (desk.discard key).letter other = desk.letter other := by
  unfold discard
  split
  · rename_i entry found
    obtain ⟨member, same⟩ := of_find? found
    rw [letter_abandon_of_ne _ (untouched entry member same).symm, letter_without]
  · rfl

/-- The box of a discarded request is given up. -/
theorem letter_discard_self {desk : Desk} {key : ReviewKey} {entry : OpenRequest}
    (found : desk.find? key = some entry) (awaited : desk.letter entry.ticket = .awaited) :
    (desk.discard key).letter entry.ticket = .abandoned := by
  rw [discard, found]
  exact letter_abandon_self awaited

/-! ## Sitting down and standing up -/

/-- The seat that a request gets: a fresh box, and the box of the request that it replaces. -/
theorem seat_sitDown (request : Request) : (desk.sitDown request).1 =
    ⟨request.key, desk.letters.length, (desk.find? request.key).map OpenRequest.ticket⟩ := rfl

/-- The request that a new one replaces lay on the desk under its key. -/
theorem of_replaced_sitDown {desk : Desk} {request : Request} {ticket : Ticket}
    (replaced : (desk.sitDown request).1.replaced = some ticket) :
    ∃ entry ∈ desk.entries, entry.key = request.key ∧ entry.ticket = ticket := by
  rw [seat_sitDown] at replaced
  obtain ⟨entry, found, same⟩ := Option.map_eq_some_iff.mp replaced
  obtain ⟨lies, under⟩ := of_find? found
  exact ⟨entry, lies, under, same⟩

/-- On the desk are then the earlier requests under other keys, and the new one. -/
theorem mem_sitDown (request : Request) (entry : OpenRequest) :
    entry ∈ (desk.sitDown request).2.entries ↔
      (entry ∈ desk.entries ∧ entry.key ≠ request.key) ∨
        entry = ⟨request, desk.letters.length⟩ := by
  simp [sitDown, without]

/-- Whoever sits down is issued a box. -/
@[simp] theorem length_sitDown (request : Request) :
    (desk.sitDown request).2.letters.length = desk.letters.length + 1 := by
  simp [sitDown, without]

/-- Whoever sits down leaves the earlier boxes as they are. -/
theorem letter_sitDown_of_lt {other : Ticket} (request : Request)
    (earlier : other < desk.letters.length) :
    (desk.sitDown request).2.letter other = desk.letter other := by
  simp [sitDown, Desk.letter, without, List.getElem?_append_left earlier]

/-- The box of whoever has just sat down is empty. -/
theorem letter_sitDown_self (request : Request) :
    (desk.sitDown request).2.letter desk.letters.length = .awaited := by
  simp [sitDown, Desk.letter, without]

/-- The end of a step takes the request under its key off the desk, and the others stay. -/
theorem entries_standUp (seat : Seat) :
    (desk.standUp seat).entries = (desk.without seat.key).entries := by
  rw [standUp, entries_setLetter, ← entries_discard]
  cases seat.replaced with
  | none => rfl
  | some ticket => exact entries_abandon _ _

/-- Whoever stands up leaves the requests under the other keys on the desk. -/
theorem mem_standUp (seat : Seat) (entry : OpenRequest) :
    entry ∈ (desk.standUp seat).entries ↔ entry ∈ desk.entries ∧ entry.key ≠ seat.key := by
  rw [entries_standUp, mem_without]

/-- Whoever stands up leaves as many boxes as there were. -/
@[simp] theorem length_standUp (seat : Seat) :
    (desk.standUp seat).letters.length = desk.letters.length := by
  unfold standUp
  cases seat.replaced <;> simp

/-- The box of whoever has stood up is closed. -/
theorem letter_standUp_self (seat : Seat) :
    (desk.standUp seat).letter seat.ticket = .closed := letter_close_self _ _

/-- The end of a step touches its own box, that of the request which it replaced, and that of the
request under its key. -/
theorem letter_standUp_of_ne {seat : Seat} {other : Ticket} (notOwn : other ≠ seat.ticket)
    (notReplaced : seat.replaced ≠ some other)
    (untouched : ∀ entry ∈ desk.entries, entry.key = seat.key → entry.ticket ≠ other) :
    (desk.standUp seat).letter other = desk.letter other := by
  have discarded := desk.letter_discard_of_ne untouched
  unfold standUp
  rw [letter_setLetter_of_ne _ notOwn]
  cases held : seat.replaced with
  | none => exact discarded
  | some ticket =>
    have different : other ≠ ticket := by
      rintro rfl
      exact notReplaced held
    rw [letter_abandon_of_ne _ different, discarded]

/-- The end of a step gives up the box of another request under its key. -/
theorem letter_standUp_other {desk : Desk} {seat : Seat} {entry : OpenRequest}
    (found : desk.find? seat.key = some entry) (awaited : desk.letter entry.ticket = .awaited)
    (notOwn : entry.ticket ≠ seat.ticket) :
    (desk.standUp seat).letter entry.ticket = .abandoned := by
  have discarded := letter_discard_self found awaited
  unfold standUp
  rw [letter_setLetter_of_ne _ notOwn]
  cases held : seat.replaced with
  | none => exact discarded
  | some ticket =>
    change ((desk.discard seat.key).abandon ticket).letter entry.ticket = .abandoned
    by_cases same : entry.ticket = ticket
    · rw [← same, abandon_of_ne (by simp [discarded]), discarded]
    · rw [letter_abandon_of_ne _ same, discarded]

/-! ## Handing in a decision -/

/-- What is taken is what is found under the key, and the desk is left without it. -/
theorem take_eq : desk.take key = (desk.find? key, desk.without key) := by
  unfold take
  cases found : desk.find? key with
  | some entry => rfl
  | none => rw [without_of_find? found]

/-- A decision that is sent leaves the requests on the desk. -/
@[simp] theorem entries_send (decision : Decision) :
    (desk.send ticket decision).2.entries = desk.entries := by
  unfold send
  split <;> rfl

/-- A decision that is sent issues no box. -/
@[simp] theorem length_send (decision : Decision) :
    (desk.send ticket decision).2.letters.length = desk.letters.length := by
  unfold send
  split
  · exact desk.length_setLetter ticket (.answered decision)
  · rfl

/-- A decision that is sent to one box leaves the others as they are. -/
theorem letter_send_of_ne {ticket other : Ticket} (different : other ≠ ticket)
    (decision : Decision) : (desk.send ticket decision).2.letter other = desk.letter other := by
  unfold send
  split
  · exact desk.letter_setLetter_of_ne different (.answered decision)
  · rfl

/-- A decision is delivered exactly if its box is empty and still looked into. -/
theorem send_delivered_iff (decision : Decision) :
    (desk.send ticket decision).1 = .delivered ↔ desk.letter ticket = .awaited := by
  unfold send
  split <;> simp_all

/-- A decision that was delivered is in the box. -/
theorem letter_send_self {desk : Desk} {ticket : Ticket} (awaited : desk.letter ticket = .awaited)
    (decision : Decision) :
    (desk.send ticket decision).2.letter ticket = .answered decision := by
  rw [send, awaited]
  exact desk.letter_setLetter_self (issued_of_letter (by simp [awaited])) (.answered decision)

/-- A decision that is not delivered changes nothing. -/
theorem send_eq_of_ne {desk : Desk} {ticket : Ticket} (taken : desk.letter ticket ≠ .awaited)
    (decision : Decision) : desk.send ticket decision = (.stepEnded, desk) := by
  unfold send
  split
  · contradiction
  · rfl

/-! ## Boxes that are settled

A box is settled once it is no longer awaited. It stays so, whatever is done at the desk. -/

/-- A box that is settled stays so when a box is given up. -/
theorem settled_abandon {desk : Desk} {ticket other : Ticket}
    (settled : desk.letter other ≠ .awaited) : (desk.abandon ticket).letter other ≠ .awaited := by
  by_cases same : other = ticket
  · rw [abandon_of_ne (same ▸ settled)]
    exact settled
  · rw [desk.letter_abandon_of_ne same]
    exact settled

/-- A box that is settled stays so when a request is discarded. -/
theorem settled_discard {desk : Desk} (key : ReviewKey) {other : Ticket}
    (settled : desk.letter other ≠ .awaited) : (desk.discard key).letter other ≠ .awaited := by
  unfold discard
  split
  · exact settled_abandon settled
  · exact settled

/-- A box that is settled stays so when somebody stands up. -/
theorem settled_standUp {desk : Desk} {seat : Seat} {other : Ticket}
    (settled : desk.letter other ≠ .awaited) : (desk.standUp seat).letter other ≠ .awaited := by
  by_cases own : other = seat.ticket
  · rw [own, letter_standUp_self]
    decide
  · have discarded := settled_discard seat.key settled
    unfold standUp
    rw [letter_setLetter_of_ne _ own]
    cases seat.replaced with
    | none => exact discarded
    | some ticket => exact settled_abandon discarded

/-- A box that is settled stays so when a decision is sent. -/
theorem settled_send {desk : Desk} {ticket other : Ticket} (decision : Decision)
    (settled : desk.letter other ≠ .awaited) :
    (desk.send ticket decision).2.letter other ≠ .awaited := by
  by_cases same : other = ticket
  · rw [send_eq_of_ne (same ▸ settled)]
    exact settled
  · rw [desk.letter_send_of_ne same]
    exact settled

/-! ## Submissions -/

/-- A decision under a key without a request changes nothing. -/
theorem submit_of_missing {desk : Desk} {key : ReviewKey} (missing : desk.find? key = none)
    (decision : Decision) : desk.submit key decision = (.noRequest, desk) := by
  rw [submit, take, missing]

/-- A decision under the key of a request is sent to its box when the request has been taken. -/
theorem submit_of_find? {desk : Desk} {key : ReviewKey} {entry : OpenRequest}
    (found : desk.find? key = some entry) (decision : Decision) :
    desk.submit key decision = (desk.without key).send entry.ticket decision := by
  rw [submit, take, found]

end Desk

end Workflow
