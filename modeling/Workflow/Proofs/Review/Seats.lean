import Workflow.Proofs.Review.Desk

/-!
# Who holds what at the desk

Steps that wait for humans hold seats, and those who hand in decisions hold letter boxes in their
hands between taking a request and answering it. `Desk.Orderly` is the invariant of a desk with
them: whoever makes a request, takes one, answers one, lets a limit run out or ends keeps it.

The invariant leaves open whether several seats have one key. What it says of such seats is that
the request on the desk is the latest of theirs.
-/
namespace Workflow

namespace Desk

/-- Requests with distinct keys keep them when some are taken off the desk. -/
theorem distinct_without {desk : Desk} (distinct : (desk.entries.map OpenRequest.key).Nodup)
    (key : ReviewKey) : ((desk.without key).entries.map OpenRequest.key).Nodup :=
  distinct.sublist (List.filter_sublist.map OpenRequest.key)

/-- A new request has a key that no other request on the desk has. -/
theorem distinct_sitDown {desk : Desk} (distinct : (desk.entries.map OpenRequest.key).Nodup)
    (request : Request) : ((desk.sitDown request).2.entries.map OpenRequest.key).Nodup := by
  change (((desk.without request.key).entries ++ [_]).map OpenRequest.key).Nodup
  rw [List.map_append, List.nodup_append]
  refine ⟨distinct_without distinct request.key, List.nodup_singleton _, ?_⟩
  intro key keyLies other otherLies same
  obtain ⟨entry, member, rfl⟩ := List.mem_map.mp keyLies
  rw [List.map_singleton, List.mem_singleton] at otherLies
  have otherKey := ((desk.mem_without request.key entry).mp member).2
  exact otherKey (same.trans otherLies)

/-- The desk is as those who hold seats at it and those who hold boxes in their hands left it. -/
structure Orderly (desk : Desk) (seats : List Seat) (hands : List Ticket) : Prop where
  /-- No two requests have one key. -/
  distinct : (desk.entries.map OpenRequest.key).Nodup
  /-- Every request belongs to a step that goes on. -/
  seated : ∀ entry ∈ desk.entries, ∃ seat ∈ seats, seat.ticket = entry.ticket ∧ seat.key = entry.key
  /-- The box of a request on the desk is empty. -/
  awaited : ∀ entry ∈ desk.entries, desk.letter entry.ticket = .awaited
  /-- No two steps look into one box. -/
  ownBoxes : (seats.map Seat.ticket).Nodup
  /-- The box of every step has been issued. -/
  issued : ∀ seat ∈ seats, seat.ticket < desk.letters.length
  /-- No step that goes on made a later request under the key of one that lies on the desk. -/
  latest : ∀ entry ∈ desk.entries, ∀ seat ∈ seats, seat.key = entry.key →
    seat.ticket ≤ entry.ticket
  /-- A request that was replaced had been made before. -/
  replacedEarlier : ∀ seat ∈ seats, ∀ ticket, seat.replaced = some ticket → ticket < seat.ticket
  /-- A request that was replaced is not on the desk. -/
  replacedGone : ∀ seat ∈ seats, ∀ entry ∈ desk.entries, seat.replaced ≠ some entry.ticket
  /-- A request that was replaced had the same key. -/
  replacedKey : ∀ seat ∈ seats, ∀ other ∈ seats, seat.replaced = some other.ticket →
    other.key = seat.key
  /-- A request that was taken in order to answer it is not on the desk. -/
  taken : ∀ ticket ∈ hands, ∀ entry ∈ desk.entries, entry.ticket ≠ ticket
  /-- A box that somebody has in his hands has been issued. -/
  handsIssued : ∀ ticket ∈ hands, ticket < desk.letters.length

namespace Orderly

variable {desk : Desk} {seats : List Seat} {hands : List Ticket}

/-- An empty desk without seats is orderly. -/
theorem empty : Desk.empty.Orderly [] [] where
  distinct := List.nodup_nil
  seated := by simp [Desk.empty]
  awaited := by simp [Desk.empty]
  ownBoxes := List.nodup_nil
  issued := by simp
  latest := by simp
  replacedEarlier := by simp
  replacedGone := by simp
  replacedKey := by simp
  taken := by simp
  handsIssued := by simp

/-- The order in which the seats are counted does not matter. -/
theorem perm (orderly : desk.Orderly seats hands) {seats' : List Seat}
    (same : seats.Perm seats') : desk.Orderly seats' hands where
  distinct := orderly.distinct
  seated entry member := by
    obtain ⟨seat, held, fits⟩ := orderly.seated entry member
    exact ⟨seat, same.mem_iff.mp held, fits⟩
  awaited := orderly.awaited
  ownBoxes := (same.map Seat.ticket).nodup_iff.mp orderly.ownBoxes
  issued seat held := orderly.issued seat (same.mem_iff.mpr held)
  latest entry member seat held := orderly.latest entry member seat (same.mem_iff.mpr held)
  replacedEarlier seat held := orderly.replacedEarlier seat (same.mem_iff.mpr held)
  replacedGone seat held := orderly.replacedGone seat (same.mem_iff.mpr held)
  replacedKey seat held other otherHeld :=
    orderly.replacedKey seat (same.mem_iff.mpr held) other (same.mem_iff.mpr otherHeld)
  taken := orderly.taken
  handsIssued := orderly.handsIssued

/-- Whoever puts a box out of his hands leaves the desk orderly. -/
theorem release (orderly : desk.Orderly seats hands) {hands' : List Ticket}
    (fewer : hands' ⊆ hands) : desk.Orderly seats hands' :=
  { orderly with
    taken := fun ticket held => orderly.taken ticket (fewer held)
    handsIssued := fun ticket held => orderly.handsIssued ticket (fewer held) }

/-! ## What the invariant says -/

/-- Two steps that look into one box are the same. -/
theorem seat_eq (orderly : desk.Orderly seats hands) {first second : Seat}
    (firstHeld : first ∈ seats) (secondHeld : second ∈ seats)
    (same : first.ticket = second.ticket) : first = second :=
  List.inj_on_of_nodup_map orderly.ownBoxes firstHeld secondHeld same

/-- The request whose box a step looks into has the key of the step. -/
theorem key_eq (orderly : desk.Orderly seats hands) {seat : Seat} {entry : OpenRequest}
    (held : seat ∈ seats) (member : entry ∈ desk.entries) (own : entry.ticket = seat.ticket) :
    entry.key = seat.key := by
  obtain ⟨owner, ownerHeld, sameBox, sameKey⟩ := orderly.seated entry member
  have sameSeat : owner = seat := orderly.seat_eq ownerHeld held (sameBox.trans own)
  rw [← sameSeat, sameKey]

/-- Two requests on the desk with one box are the same. -/
theorem entry_eq (orderly : desk.Orderly seats hands) {first second : OpenRequest}
    (firstLies : first ∈ desk.entries) (secondLies : second ∈ desk.entries)
    (same : first.ticket = second.ticket) : first = second := by
  obtain ⟨owner, held, sameBox, sameKey⟩ := orderly.seated first firstLies
  have key : second.key = owner.key := orderly.key_eq held secondLies (same.symm.trans sameBox.symm)
  exact List.inj_on_of_nodup_map orderly.distinct firstLies secondLies (sameKey.symm.trans key.symm)

/-- The box of a request on the desk has been issued. -/
theorem entry_issued (orderly : desk.Orderly seats hands) {entry : OpenRequest}
    (member : entry ∈ desk.entries) : entry.ticket < desk.letters.length := by
  obtain ⟨seat, held, same, -⟩ := orderly.seated entry member
  exact same ▸ orderly.issued seat held

/-- A request on the desk is found under its key. -/
theorem find? (orderly : desk.Orderly seats hands) {entry : OpenRequest}
    (member : entry ∈ desk.entries) : desk.find? entry.key = some entry :=
  find?_of_mem orderly.distinct member

/-- A decision about a request on the desk is delivered. -/
theorem submit (orderly : desk.Orderly seats hands) {entry : OpenRequest}
    (member : entry ∈ desk.entries) (decision : Decision) :
    (desk.submit entry.key decision).1 = .delivered ∧
      (desk.submit entry.key decision).2.letter entry.ticket = .answered decision := by
  have awaited : (desk.without entry.key).letter entry.ticket = .awaited :=
    orderly.awaited entry member
  rw [submit_of_find? (orderly.find? member)]
  exact ⟨(send_delivered_iff _ _ decision).mpr awaited, letter_send_self awaited decision⟩

/-- Discarding the request under a key does not touch the box of a step with another key. -/
theorem letter_discard (orderly : desk.Orderly seats hands) {seat : Seat} (held : seat ∈ seats)
    {key : ReviewKey} (otherKey : seat.key ≠ key) :
    (desk.discard key).letter seat.ticket = desk.letter seat.ticket := by
  apply desk.letter_discard_of_ne
  intro entry member under own
  exact otherKey ((orderly.key_eq held member own).symm.trans under)

/-- The end of a step does not touch the box of a step with another key. -/
theorem letter_standUp (orderly : desk.Orderly seats hands) {seat other : Seat}
    (held : seat ∈ seats) (otherHeld : other ∈ seats) (otherKey : other.key ≠ seat.key) :
    (desk.standUp seat).letter other.ticket = desk.letter other.ticket := by
  apply desk.letter_standUp_of_ne
  · intro same
    exact otherKey (congrArg Seat.key (orderly.seat_eq otherHeld held same))
  · intro replaced
    exact otherKey (orderly.replacedKey seat held other otherHeld replaced)
  · intro entry member under own
    exact otherKey ((orderly.key_eq otherHeld member own).symm.trans under)

/-! ## What keeps it -/

/-- Whoever takes requests off an orderly desk, and touches no box but theirs, leaves it orderly. -/
theorem fewer (orderly : desk.Orderly seats hands) {desk' : Desk}
    (sublist : desk'.entries.Sublist desk.entries)
    (length : desk'.letters.length = desk.letters.length)
    (untouched : ∀ entry ∈ desk'.entries,
      desk'.letter entry.ticket = desk.letter entry.ticket) : desk'.Orderly seats hands where
  distinct := orderly.distinct.sublist (sublist.map OpenRequest.key)
  seated entry member := orderly.seated entry (sublist.subset member)
  awaited entry member := by
    rw [untouched entry member]
    exact orderly.awaited entry (sublist.subset member)
  ownBoxes := orderly.ownBoxes
  issued seat held := by
    rw [length]
    exact orderly.issued seat held
  latest entry member := orderly.latest entry (sublist.subset member)
  replacedEarlier := orderly.replacedEarlier
  replacedGone seat held entry member := orderly.replacedGone seat held entry (sublist.subset member)
  replacedKey := orderly.replacedKey
  taken ticket held entry member := orderly.taken ticket held entry (sublist.subset member)
  handsIssued ticket held := by
    rw [length]
    exact orderly.handsIssued ticket held

/-- Whoever takes the request under a key off the desk leaves it orderly. -/
theorem without (orderly : desk.Orderly seats hands) (key : ReviewKey) :
    (desk.without key).Orderly seats hands :=
  orderly.fewer List.filter_sublist rfl fun _ _ => rfl

/-- A limit that runs out leaves the desk orderly. -/
theorem discard (orderly : desk.Orderly seats hands) (key : ReviewKey) :
    (desk.discard key).Orderly seats hands := by
  have remaining := desk.entries_discard key
  refine orderly.fewer (remaining ▸ List.filter_sublist) (desk.length_discard key) ?_
  intro entry member
  obtain ⟨lies, otherKey⟩ := (desk.mem_discard key entry).mp member
  apply desk.letter_discard_of_ne
  intro discarded discardedLies under same
  rw [orderly.entry_eq discardedLies lies same] at under
  exact otherKey under

/-- A request that was replaced has a box that has been issued. -/
theorem replaced_issued (orderly : desk.Orderly seats hands) {seat : Seat} (held : seat ∈ seats)
    {ticket : Ticket} (replaced : seat.replaced = some ticket) : ticket < desk.letters.length := by
  have earlier := orderly.replacedEarlier seat held ticket replaced
  exact Nat.lt_trans earlier (orderly.issued seat held)

/-- A step that makes a request gets a seat at an orderly desk. -/
theorem sitDown (orderly : desk.Orderly seats hands) (request : Request) :
    (desk.sitDown request).2.Orderly ((desk.sitDown request).1 :: seats) hands := by
  -- A request on the desk is an earlier one with another key, or the new one with its fresh box; a
  -- seat is an earlier one, or the new one.
  constructor
  case distinct =>
    exact distinct_sitDown orderly.distinct request
  case seated =>
    intro entry member
    rcases (desk.mem_sitDown request entry).mp member with ⟨lies, -⟩ | rfl
    · obtain ⟨seat, held, fits⟩ := orderly.seated entry lies
      exact ⟨seat, List.mem_cons_of_mem _ held, fits⟩
    · exact ⟨_, List.mem_cons_self, rfl, rfl⟩
  case awaited =>
    intro entry member
    rcases (desk.mem_sitDown request entry).mp member with ⟨lies, -⟩ | rfl
    · rw [desk.letter_sitDown_of_lt request (orderly.entry_issued lies)]
      exact orderly.awaited entry lies
    · exact desk.letter_sitDown_self request
  case ownBoxes =>
    rw [List.map_cons, List.nodup_cons]
    refine ⟨?_, orderly.ownBoxes⟩
    intro repeated
    obtain ⟨seat, held, same⟩ := List.mem_map.mp repeated
    have issued := orderly.issued seat held
    rw [same] at issued
    exact Nat.lt_irrefl _ issued
  case issued =>
    intro seat held
    rw [length_sitDown]
    rcases List.mem_cons.mp held with rfl | held
    · exact Nat.lt_succ_self _
    · exact Nat.lt_succ_of_lt (orderly.issued seat held)
  case latest =>
    intro entry member seat held sameKey
    rcases (desk.mem_sitDown request entry).mp member with ⟨lies, otherKey⟩ | rfl
    · rcases List.mem_cons.mp held with rfl | held
      · exact absurd sameKey.symm otherKey
      · exact orderly.latest entry lies seat held sameKey
    · rcases List.mem_cons.mp held with rfl | held
      · exact Nat.le_refl _
      · exact Nat.le_of_lt (orderly.issued seat held)
  case replacedEarlier =>
    intro seat held ticket replaced
    rcases List.mem_cons.mp held with rfl | held
    · obtain ⟨entry, lies, -, rfl⟩ := of_replaced_sitDown replaced
      exact orderly.entry_issued lies
    · exact orderly.replacedEarlier seat held ticket replaced
  case replacedGone =>
    intro seat held entry member replaced
    rcases (desk.mem_sitDown request entry).mp member with ⟨lies, otherKey⟩ | rfl
    · rcases List.mem_cons.mp held with rfl | held
      · obtain ⟨first, firstLies, under, same⟩ := of_replaced_sitDown replaced
        rw [orderly.entry_eq firstLies lies same] at under
        exact otherKey under
      · exact orderly.replacedGone seat held entry lies replaced
    · rcases List.mem_cons.mp held with rfl | held
      · obtain ⟨first, firstLies, -, same⟩ := of_replaced_sitDown replaced
        exact Nat.ne_of_lt (orderly.entry_issued firstLies) same
      · exact Nat.lt_irrefl _ (orderly.replaced_issued held replaced)
  case replacedKey =>
    intro seat held other otherHeld replaced
    rcases List.mem_cons.mp otherHeld with rfl | otherHeld
    · rcases List.mem_cons.mp held with rfl | held
      · rfl
      · exact absurd (orderly.replaced_issued held replaced) (Nat.lt_irrefl _)
    · rcases List.mem_cons.mp held with rfl | held
      · obtain ⟨entry, lies, under, same⟩ := of_replaced_sitDown replaced
        rw [← orderly.key_eq otherHeld lies same, under]
        rfl
      · exact orderly.replacedKey seat held other otherHeld replaced
  case taken =>
    intro ticket held entry member
    rcases (desk.mem_sitDown request entry).mp member with ⟨lies, -⟩ | rfl
    · exact orderly.taken ticket held entry lies
    · exact Nat.ne_of_gt (orderly.handsIssued ticket held)
  case handsIssued =>
    intro ticket held
    rw [length_sitDown]
    exact Nat.lt_succ_of_lt (orderly.handsIssued ticket held)

/-- A step whose request is not on the desk may go without anybody noticing. -/
theorem unseat {seat : Seat} (orderly : desk.Orderly (seat :: seats) hands)
    (gone : ∀ entry ∈ desk.entries, entry.ticket ≠ seat.ticket) : desk.Orderly seats hands where
  distinct := orderly.distinct
  seated entry member := by
    obtain ⟨owner, held, sameBox, sameKey⟩ := orderly.seated entry member
    rcases List.mem_cons.mp held with rfl | held
    · exact absurd sameBox.symm (gone entry member)
    · exact ⟨owner, held, sameBox, sameKey⟩
  awaited := orderly.awaited
  ownBoxes := (List.nodup_cons.mp orderly.ownBoxes).2
  issued other held := orderly.issued other (List.mem_cons_of_mem seat held)
  latest entry member other held :=
    orderly.latest entry member other (List.mem_cons_of_mem seat held)
  replacedEarlier other held := orderly.replacedEarlier other (List.mem_cons_of_mem seat held)
  replacedGone other held := orderly.replacedGone other (List.mem_cons_of_mem seat held)
  replacedKey first firstHeld second secondHeld :=
    orderly.replacedKey first (List.mem_cons_of_mem seat firstHeld) second
      (List.mem_cons_of_mem seat secondHeld)
  taken := orderly.taken
  handsIssued := orderly.handsIssued

/-- A step that ends leaves an orderly desk to the others. -/
theorem standUp {seat : Seat} (orderly : desk.Orderly (seat :: seats) hands) :
    (desk.standUp seat).Orderly seats hands := by
  have remaining := desk.entries_standUp seat
  have notOwn : ∀ entry ∈ (desk.standUp seat).entries, entry.ticket ≠ seat.ticket := by
    intro entry member own
    obtain ⟨lies, otherKey⟩ := (desk.mem_standUp seat entry).mp member
    exact otherKey (orderly.key_eq List.mem_cons_self lies own)
  have fewer : (desk.standUp seat).Orderly (seat :: seats) hands := by
    refine orderly.fewer (remaining ▸ List.filter_sublist) (desk.length_standUp seat) ?_
    intro entry member
    obtain ⟨lies, otherKey⟩ := (desk.mem_standUp seat entry).mp member
    apply desk.letter_standUp_of_ne (notOwn entry member)
    · exact orderly.replacedGone seat List.mem_cons_self entry lies
    · intro discarded discardedLies under same
      rw [orderly.entry_eq discardedLies lies same] at under
      exact otherKey under
  exact fewer.unseat notOwn

/-- Whoever takes a request in order to answer it leaves the desk orderly. -/
theorem take (orderly : desk.Orderly seats hands) {key : ReviewKey} {entry : OpenRequest}
    (found : desk.find? key = some entry) :
    (desk.without key).Orderly seats (entry.ticket :: hands) := by
  refine { orderly.without key with taken := ?_, handsIssued := ?_ }
  · intro ticket held other member
    obtain ⟨lies, otherKey⟩ := (desk.mem_without key other).mp member
    rcases List.mem_cons.mp held with rfl | held
    · intro same
      rw [orderly.entry_eq lies (of_find? found).1 same] at otherKey
      exact otherKey (of_find? found).2
    · exact orderly.taken ticket held other lies
  · intro ticket held
    rcases List.mem_cons.mp held with rfl | held
    · exact orderly.entry_issued (of_find? found).1
    · exact orderly.handsIssued ticket held

/-- A decision that is sent to a box in somebody's hands leaves the desk orderly. -/
theorem send (orderly : desk.Orderly seats hands) {ticket : Ticket} (held : ticket ∈ hands)
    (decision : Decision) : (desk.send ticket decision).2.Orderly seats hands := by
  have same : (desk.send ticket decision).2.entries = desk.entries :=
    desk.entries_send ticket decision
  refine orderly.fewer (same ▸ List.Sublist.refl _) (desk.length_send ticket decision) ?_
  intro entry member
  rw [same] at member
  exact desk.letter_send_of_ne (orderly.taken ticket held entry member) decision

end Orderly

end Desk

end Workflow
