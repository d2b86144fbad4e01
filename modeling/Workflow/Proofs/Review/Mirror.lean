import Workflow.Proofs.Review.Seats

/-!
# One execution at two desks

An execution that shares a desk with others is compared with the same execution at a desk of its
own. The boxes have other numbers there, so a request of the execution is known by a pair of seats,
one at each desk. `Desk.Mirror` says that the desks agree on these pairs: whether the request lies
on the desk, what is in its box and which other request it replaced.

What the execution does, and what is handed in for it, is done at both desks and keeps the desks in
agreement. What others do is done at the shared desk alone and does not touch them.
-/
namespace Workflow

namespace Desk

/-- The request of a seat lies on the desk. -/
def Bears (desk : Desk) (seat : Seat) : Prop :=
  ∃ entry ∈ desk.entries, entry.ticket = seat.ticket

section OneDesk

variable {desk desk' : Desk} {seats : List Seat} {hands : List Ticket} {seat : Seat}
  {key : ReviewKey}

namespace Orderly

/-- What is found under a key is the request of a seat with the key. -/
theorem of_find? (orderly : desk.Orderly seats hands) {entry : OpenRequest}
    (found : desk.find? key = some entry) :
    ∃ seat ∈ seats, seat.key = key ∧ entry.ticket = seat.ticket ∧ desk.Bears seat := by
  obtain ⟨lies, under⟩ := Desk.of_find? found
  obtain ⟨seat, held, sameBox, sameKey⟩ := orderly.seated entry lies
  exact ⟨seat, held, sameKey.trans under, sameBox.symm, entry, lies, sameBox.symm⟩

/-- The request of a seat is what is found under its key. -/
theorem find?_of_bears (orderly : desk.Orderly seats hands) (held : seat ∈ seats)
    (bears : desk.Bears seat) :
    ∃ entry, desk.find? seat.key = some entry ∧ entry.ticket = seat.ticket := by
  obtain ⟨entry, lies, own⟩ := bears
  exact ⟨entry, orderly.key_eq held lies own ▸ orderly.find? lies, own⟩

/-- The box under a key is that of a seat exactly if its request lies there. -/
theorem find?_ticket (orderly : desk.Orderly seats hands) (held : seat ∈ seats) :
    (desk.find? key).map OpenRequest.ticket = some seat.ticket ↔
      desk.Bears seat ∧ seat.key = key := by
  constructor
  · intro same
    obtain ⟨entry, found, own⟩ := Option.map_eq_some_iff.mp same
    obtain ⟨lies, under⟩ := Desk.of_find? found
    exact ⟨⟨entry, lies, own⟩, (orderly.key_eq held lies own).symm.trans under⟩
  · rintro ⟨bears, rfl⟩
    obtain ⟨entry, found, own⟩ := orderly.find?_of_bears held bears
    rw [found, Option.map_some, own]

/-- What takes the request under a key off the desk leaves those with other keys. -/
theorem bears_without (orderly : desk.Orderly seats hands) (held : seat ∈ seats)
    (remaining : desk'.entries = (desk.without key).entries) :
    desk'.Bears seat ↔ desk.Bears seat ∧ seat.key ≠ key := by
  simp only [Bears, remaining, mem_without]
  constructor
  · rintro ⟨entry, ⟨lies, otherKey⟩, own⟩
    exact ⟨⟨entry, lies, own⟩, orderly.key_eq held lies own ▸ otherKey⟩
  · rintro ⟨⟨entry, lies, own⟩, otherKey⟩
    exact ⟨entry, ⟨lies, (orderly.key_eq held lies own).symm ▸ otherKey⟩, own⟩

/-- A new request lies on the desk, and those with other keys stay. -/
theorem bears_sitDown (orderly : desk.Orderly seats hands) (held : seat ∈ seats)
    (request : Request) :
    (desk.sitDown request).2.Bears seat ↔ desk.Bears seat ∧ seat.key ≠ request.key := by
  have rest : (desk.without request.key).Bears seat ↔ desk.Bears seat ∧ seat.key ≠ request.key :=
    orderly.bears_without held rfl
  rw [← rest]
  simp only [Bears, mem_sitDown, mem_without]
  constructor
  · rintro ⟨entry, lies | rfl, own⟩
    · exact ⟨entry, lies, own⟩
    · exact absurd own.symm (Nat.ne_of_lt (orderly.issued seat held))
  · rintro ⟨entry, lies, own⟩
    exact ⟨entry, .inl lies, own⟩

/-- The box of a request that is discarded is given up. -/
theorem letter_discard_of_bears (orderly : desk.Orderly seats hands) (held : seat ∈ seats)
    (bears : desk.Bears seat) : (desk.discard seat.key).letter seat.ticket = .abandoned := by
  obtain ⟨entry, found, own⟩ := orderly.find?_of_bears held bears
  rw [← own]
  exact letter_discard_self found (orderly.awaited entry (Desk.of_find? found).1)

/-- The box of a request that does not lie under the key stays as it is. -/
theorem letter_discard_of_not (orderly : desk.Orderly seats hands) (held : seat ∈ seats)
    (other : ¬(desk.Bears seat ∧ seat.key = key)) :
    (desk.discard key).letter seat.ticket = desk.letter seat.ticket := by
  refine desk.letter_discard_of_ne fun entry lies under own => other ⟨⟨entry, lies, own⟩, ?_⟩
  rw [← orderly.key_eq held lies own, under]

/-- A decision reaches the box of the request under its key. -/
theorem letter_submit_of_bears (orderly : desk.Orderly seats hands) (held : seat ∈ seats)
    (bears : desk.Bears seat) (decision : Decision) :
    (desk.submit seat.key decision).2.letter seat.ticket = .answered decision := by
  obtain ⟨entry, lies, own⟩ := bears
  rw [← own, ← orderly.key_eq held lies own]
  exact (orderly.submit lies decision).2

/-- A decision does not reach the box of a request that does not lie under its key. -/
theorem letter_submit_of_not (orderly : desk.Orderly seats hands) (held : seat ∈ seats)
    (other : ¬(desk.Bears seat ∧ seat.key = key)) (decision : Decision) :
    (desk.submit key decision).2.letter seat.ticket = desk.letter seat.ticket := by
  cases found : desk.find? key with
  | none => rw [submit_of_missing found]
  | some entry =>
    obtain ⟨lies, under⟩ := Desk.of_find? found
    rw [submit_of_find? found, letter_send_of_ne, letter_without]
    intro own
    exact other ⟨⟨entry, lies, own.symm⟩, (orderly.key_eq held lies own.symm).symm.trans under⟩

/-- Whoever hands in a decision leaves the desk orderly. -/
theorem submitted (orderly : desk.Orderly seats hands) (key : ReviewKey) (decision : Decision) :
    (desk.submit key decision).2.Orderly seats hands := by
  cases found : desk.find? key with
  | none =>
    rw [submit_of_missing found]
    exact orderly
  | some entry =>
    rw [submit_of_find? found]
    exact ((orderly.take found).send List.mem_cons_self decision).release
      (List.subset_cons_self _ _)

end Orderly

/-- To hand in a decision issues no box. -/
theorem length_submit (desk : Desk) (key : ReviewKey) (decision : Decision) :
    (desk.submit key decision).2.letters.length = desk.letters.length := by
  cases found : desk.find? key with
  | none => rw [submit_of_missing found]
  | some entry =>
    rw [submit_of_find? found, length_send]
    rfl

/-- To hand in a decision takes the request under its key off the desk. -/
theorem entries_submit (desk : Desk) (key : ReviewKey) (decision : Decision) :
    (desk.submit key decision).2.entries = (desk.without key).entries := by
  cases found : desk.find? key with
  | none => rw [submit_of_missing found, without_of_find? found]
  | some entry => rw [submit_of_find? found, entries_send]

/-- What becomes of another box when a step ends: it is given up if the step replaced its request.
-/
theorem letter_standUp (desk : Desk) {seat : Seat} {other : Ticket} (notOwn : other ≠ seat.ticket) :
    (desk.standUp seat).letter other =
      if seat.replaced = some other then ((desk.discard seat.key).abandon other).letter other
      else (desk.discard seat.key).letter other := by
  unfold standUp
  rw [letter_setLetter_of_ne _ notOwn]
  cases replaced : seat.replaced with
  | none => simp
  | some ticket =>
    by_cases same : ticket = other
    · simp [same]
    · simp [same, letter_abandon_of_ne _ (Ne.symm same)]

/-- Boxes in which the same lies are given up alike. -/
theorem letter_abandon_congr {left right : Desk} {ticket ticket' : Ticket}
    (same : right.letter ticket' = left.letter ticket) :
    (right.abandon ticket').letter ticket' = (left.abandon ticket).letter ticket := by
  by_cases awaited : left.letter ticket = .awaited
  · rw [letter_abandon_self awaited, letter_abandon_self (same.trans awaited)]
  · rw [abandon_of_ne awaited, abandon_of_ne (same ▸ awaited), same]

end OneDesk

/-! ## Two desks -/

/-- A shared desk and a desk of its own agree on the requests of an execution. The seats of the
execution come in pairs; others hold seats at the shared desk only. -/
structure Mirror (execution : String) (pairs : List (Seat × Seat)) (foreign : List Seat)
    (shared own : Desk) : Prop where
  common : shared.Orderly (pairs.map Prod.fst ++ foreign) []
  single : own.Orderly (pairs.map Prod.snd) []
  keys : ∀ pair ∈ pairs, pair.2.key = pair.1.key ∧ pair.1.key.execution = execution
  /-- The others belong to other executions. -/
  strangers : ∀ seat ∈ foreign, seat.key.execution ≠ execution
  letters : ∀ pair ∈ pairs, own.letter pair.2.ticket = shared.letter pair.1.ticket
  bears : ∀ pair ∈ pairs, own.Bears pair.2 ↔ shared.Bears pair.1
  replaced : ∀ pair ∈ pairs, ∀ other ∈ pairs,
    pair.2.replaced = some other.2.ticket ↔ pair.1.replaced = some other.1.ticket

namespace Mirror

variable {execution : String} {pairs : List (Seat × Seat)} {foreign : List Seat}
  {shared own : Desk}

/-- The first seat of a pair is held at the shared desk. -/
theorem held_shared {pair : Seat × Seat} (known : pair ∈ pairs) :
    pair.1 ∈ pairs.map Prod.fst ++ foreign :=
  List.mem_append_left _ (List.mem_map_of_mem known)

/-- The second seat of a pair is held at the own desk. -/
theorem held_own {pair : Seat × Seat} (known : pair ∈ pairs) : pair.2 ∈ pairs.map Prod.snd :=
  List.mem_map_of_mem known

/-- The order in which the seats are counted does not matter. -/
theorem perm (mirror : Mirror execution pairs foreign shared own) {pairs' : List (Seat × Seat)}
    {foreign' : List Seat} (same : pairs.Perm pairs') (others : foreign.Perm foreign') :
    Mirror execution pairs' foreign' shared own where
  common := mirror.common.perm ((same.map _).append others)
  single := mirror.single.perm (same.map _)
  keys pair known := mirror.keys pair (same.mem_iff.mpr known)
  strangers seat known := mirror.strangers seat (others.mem_iff.mpr known)
  letters pair known := mirror.letters pair (same.mem_iff.mpr known)
  bears pair known := mirror.bears pair (same.mem_iff.mpr known)
  replaced pair known other otherKnown :=
    mirror.replaced pair (same.mem_iff.mpr known) other (same.mem_iff.mpr otherKnown)

/-- Under a key of the execution a request lies on both desks or on neither. -/
theorem find?_isSome (mirror : Mirror execution pairs foreign shared own) {key : ReviewKey}
    (ours : key.execution = execution) :
    (own.find? key).isSome = (shared.find? key).isSome := by
  rw [Bool.eq_iff_iff, Option.isSome_iff_exists, Option.isSome_iff_exists]
  constructor
  · rintro ⟨entry, found⟩
    obtain ⟨seat, held, rfl, -, bears⟩ := mirror.single.of_find? found
    obtain ⟨pair, known, rfl⟩ := List.mem_map.mp held
    obtain ⟨other, found, -⟩ := mirror.common.find?_of_bears (held_shared known)
      ((mirror.bears pair known).mp bears)
    exact ⟨other, (mirror.keys pair known).1 ▸ found⟩
  · rintro ⟨entry, found⟩
    obtain ⟨seat, held, rfl, -, bears⟩ := mirror.common.of_find? found
    rcases List.mem_append.mp held with paired | elsewhere
    · obtain ⟨pair, known, rfl⟩ := List.mem_map.mp paired
      obtain ⟨other, found, -⟩ := mirror.single.find?_of_bears (held_own known)
        ((mirror.bears pair known).mpr bears)
      exact ⟨other, (mirror.keys pair known).1 ▸ found⟩
    · exact absurd ours (mirror.strangers seat elsewhere)

/-! ### What the execution does -/

/-- The request of a pair lies under a key at both desks or at neither. -/
theorem bears_under (mirror : Mirror execution pairs foreign shared own) {pair : Seat × Seat}
    (known : pair ∈ pairs) (key : ReviewKey) :
    own.Bears pair.2 ∧ pair.2.key = key ↔ shared.Bears pair.1 ∧ pair.1.key = key := by
  rw [mirror.bears pair known, (mirror.keys pair known).1]

/-- A request of the execution is made at both desks, and the two seats are a pair. -/
theorem sitDown (mirror : Mirror execution pairs foreign shared own) (request : Request)
    (ours : request.execution = execution) :
    Mirror execution (((shared.sitDown request).1, (own.sitDown request).1) :: pairs) foreign
      (shared.sitDown request).2 (own.sitDown request).2 where
  common := mirror.common.sitDown request
  single := mirror.single.sitDown request
  keys := List.forall_mem_cons.mpr ⟨⟨rfl, ours⟩, mirror.keys⟩
  strangers := mirror.strangers
  letters := by
    refine List.forall_mem_cons.mpr ⟨?_, fun pair known => ?_⟩
    · exact (own.letter_sitDown_self request).trans (shared.letter_sitDown_self request).symm
    · rw [own.letter_sitDown_of_lt request (mirror.single.issued _ (held_own known)),
        shared.letter_sitDown_of_lt request (mirror.common.issued _ (held_shared known)),
        mirror.letters pair known]
  bears := by
    refine List.forall_mem_cons.mpr ⟨?_, fun pair known => ?_⟩
    · have lies : ∀ desk : Desk, (desk.sitDown request).2.Bears (desk.sitDown request).1 :=
        fun desk => ⟨_, (desk.mem_sitDown request _).mpr (.inr rfl), rfl⟩
      exact iff_of_true (lies own) (lies shared)
    · rw [mirror.single.bears_sitDown (held_own known),
        mirror.common.bears_sitDown (held_shared known), mirror.bears pair known,
        (mirror.keys pair known).1]
  replaced := by
    -- A new request replaces what lies under its key, and nothing has replaced it.
    have newest : ∀ {desk : Desk} {seats : List Seat}, desk.Orderly seats [] →
        ∀ seat ∈ (desk.sitDown request).1 :: seats,
          seat.replaced ≠ some (desk.sitDown request).1.ticket := by
      intro desk seats orderly seat held replaced
      have seated := orderly.sitDown request
      rcases List.mem_cons.mp held with rfl | earlier
      · exact Nat.lt_irrefl _ (seated.replacedEarlier _ List.mem_cons_self _ replaced)
      · exact Nat.lt_irrefl _ (orderly.replaced_issued earlier replaced)
    intro pair known other otherKnown
    rcases List.mem_cons.mp otherKnown with rfl | otherKnown
    · have held : pair.1 ∈ (shared.sitDown request).1 :: (pairs.map Prod.fst ++ foreign) ∧
          pair.2 ∈ (own.sitDown request).1 :: pairs.map Prod.snd := by
        rcases List.mem_cons.mp known with rfl | known
        · exact ⟨List.mem_cons_self, List.mem_cons_self⟩
        · exact ⟨List.mem_cons_of_mem _ (held_shared known),
            List.mem_cons_of_mem _ (held_own known)⟩
      exact iff_of_false (newest mirror.single _ held.2) (newest mirror.common _ held.1)
    · rcases List.mem_cons.mp known with rfl | known
      · rw [seat_sitDown, seat_sitDown, mirror.single.find?_ticket (held_own otherKnown),
          mirror.common.find?_ticket (held_shared otherKnown), mirror.bears_under otherKnown]
      · exact mirror.replaced pair known other otherKnown

/-- What takes requests off both desks by their key, and leaves the same in each box of a pair. -/
theorem fewer (mirror : Mirror execution pairs foreign shared own) {shared' own' : Desk}
    (sharedOrderly : shared'.Orderly (pairs.map Prod.fst ++ foreign) [])
    (ownOrderly : own'.Orderly (pairs.map Prod.snd) []) {key : ReviewKey}
    (sharedRest : shared'.entries = (shared.without key).entries)
    (ownRest : own'.entries = (own.without key).entries)
    (letters : ∀ pair ∈ pairs, own'.letter pair.2.ticket = shared'.letter pair.1.ticket) :
    Mirror execution pairs foreign shared' own' where
  common := sharedOrderly
  single := ownOrderly
  keys := mirror.keys
  strangers := mirror.strangers
  letters := letters
  bears pair known := by
    rw [mirror.single.bears_without (held_own known) ownRest,
      mirror.common.bears_without (held_shared known) sharedRest, mirror.bears pair known,
      (mirror.keys pair known).1]
  replaced := mirror.replaced

/-- Discarding a request leaves the boxes of a pair alike. -/
theorem letter_discard (mirror : Mirror execution pairs foreign shared own) {pair : Seat × Seat}
    (known : pair ∈ pairs) (key : ReviewKey) :
    (own.discard key).letter pair.2.ticket = (shared.discard key).letter pair.1.ticket := by
  by_cases under : shared.Bears pair.1 ∧ pair.1.key = key
  · obtain ⟨ownBears, rfl⟩ := (mirror.bears_under known key).mpr under
    rw [mirror.single.letter_discard_of_bears (held_own known) ownBears, (mirror.keys pair known).1,
      mirror.common.letter_discard_of_bears (held_shared known) under.1]
  · rw [mirror.single.letter_discard_of_not (held_own known)
        fun other => under ((mirror.bears_under known key).mp other),
      mirror.common.letter_discard_of_not (held_shared known) under, mirror.letters pair known]

/-- The request under a key is discarded at both desks. -/
theorem discard (mirror : Mirror execution pairs foreign shared own) (key : ReviewKey) :
    Mirror execution pairs foreign (shared.discard key) (own.discard key) :=
  mirror.fewer (mirror.common.discard key) (mirror.single.discard key) (shared.entries_discard key)
    (own.entries_discard key) fun _ known => mirror.letter_discard known key

/-- A decision for the execution is handed in at both desks. -/
theorem submit (mirror : Mirror execution pairs foreign shared own) (key : ReviewKey)
    (decision : Decision) : Mirror execution pairs foreign (shared.submit key decision).2
      (own.submit key decision).2 := by
  refine mirror.fewer (mirror.common.submitted key decision) (mirror.single.submitted key decision)
    (shared.entries_submit key decision) (own.entries_submit key decision) fun pair known => ?_
  by_cases under : shared.Bears pair.1 ∧ pair.1.key = key
  · obtain ⟨ownBears, rfl⟩ := (mirror.bears_under known key).mpr under
    rw [mirror.single.letter_submit_of_bears (held_own known) ownBears, (mirror.keys pair known).1,
      mirror.common.letter_submit_of_bears (held_shared known) under.1]
  · rw [mirror.single.letter_submit_of_not (held_own known)
        fun other => under ((mirror.bears_under known key).mp other),
      mirror.common.letter_submit_of_not (held_shared known) under, mirror.letters pair known]

/-- A step of the execution ends at both desks. -/
theorem standUp {pair : Seat × Seat}
    (mirror : Mirror execution (pair :: pairs) foreign shared own) :
    Mirror execution pairs foreign (shared.standUp pair.1) (own.standUp pair.2) where
  common := mirror.common.standUp
  single := mirror.single.standUp
  keys other known := mirror.keys other (List.mem_cons_of_mem pair known)
  strangers := mirror.strangers
  letters other known := by
    have among : other ∈ pair :: pairs := List.mem_cons_of_mem pair known
    have sharedBox : other.1.ticket ≠ pair.1.ticket := by
      intro same
      exact (List.nodup_cons.mp mirror.common.ownBoxes).1
        (same ▸ List.mem_map_of_mem (held_shared known))
    have ownBox : other.2.ticket ≠ pair.2.ticket := by
      intro same
      exact (List.nodup_cons.mp mirror.single.ownBoxes).1
        (same ▸ List.mem_map_of_mem (held_own known))
    have discarded := mirror.letter_discard among pair.1.key
    rw [Desk.letter_standUp _ ownBox, Desk.letter_standUp _ sharedBox,
      (mirror.keys pair List.mem_cons_self).1]
    simp only [mirror.replaced pair List.mem_cons_self other among]
    split
    · exact letter_abandon_congr discarded
    · exact discarded
  bears other known := by
    have among : other ∈ pair :: pairs := List.mem_cons_of_mem pair known
    rw [mirror.single.bears_without (held_own among) (own.entries_standUp pair.2),
      mirror.common.bears_without (held_shared among) (shared.entries_standUp pair.1),
      mirror.bears other among, (mirror.keys other among).1,
      (mirror.keys pair List.mem_cons_self).1]
  replaced first known second otherKnown :=
    mirror.replaced first (List.mem_cons_of_mem pair known) second
      (List.mem_cons_of_mem pair otherKnown)

/-! ### What others do -/

/-- What leaves the requests and boxes of the execution at the shared desk alone keeps the desks in
agreement. -/
theorem frame (mirror : Mirror execution pairs foreign shared own) {shared' : Desk}
    {foreign' : List Seat} (common : shared'.Orderly (pairs.map Prod.fst ++ foreign') [])
    (strangers : ∀ seat ∈ foreign', seat.key.execution ≠ execution)
    (letters : ∀ pair ∈ pairs, shared'.letter pair.1.ticket = shared.letter pair.1.ticket)
    (bears : ∀ pair ∈ pairs, shared'.Bears pair.1 ↔ shared.Bears pair.1) :
    Mirror execution pairs foreign' shared' own where
  common := common
  single := mirror.single
  keys := mirror.keys
  strangers := strangers
  letters pair known := by rw [letters pair known, mirror.letters pair known]
  bears pair known := by rw [bears pair known, mirror.bears pair known]
  replaced := mirror.replaced

/-- A request of the execution has another key than those of others. -/
theorem key_ne (mirror : Mirror execution pairs foreign shared own) {pair : Seat × Seat}
    (known : pair ∈ pairs) {key : ReviewKey} (theirs : key.execution ≠ execution) :
    pair.1.key ≠ key := by
  rintro rfl
  exact theirs (mirror.keys pair known).2

/-- A request of another execution is made at the shared desk only. -/
theorem sitDown_stranger (mirror : Mirror execution pairs foreign shared own) (request : Request)
    (theirs : request.key.execution ≠ execution) :
    Mirror execution pairs ((shared.sitDown request).1 :: foreign)
      (shared.sitDown request).2 own := by
  refine mirror.frame ?_ (List.forall_mem_cons.mpr ⟨theirs, mirror.strangers⟩)
    (fun pair known => ?_) fun pair known => ?_
  · exact (mirror.common.sitDown request).perm List.perm_middle.symm
  · exact shared.letter_sitDown_of_lt request (mirror.common.issued _ (held_shared known))
  · rw [mirror.common.bears_sitDown (held_shared known)]
    exact and_iff_left (mirror.key_ne known theirs)

/-- A request of another execution is discarded at the shared desk only. -/
theorem discard_stranger (mirror : Mirror execution pairs foreign shared own) {key : ReviewKey}
    (theirs : key.execution ≠ execution) :
    Mirror execution pairs foreign (shared.discard key) own := by
  refine mirror.frame (mirror.common.discard key) mirror.strangers (fun pair known => ?_)
    fun pair known => ?_
  · exact mirror.common.letter_discard (held_shared known) (mirror.key_ne known theirs)
  · rw [mirror.common.bears_without (held_shared known) (shared.entries_discard key)]
    exact and_iff_left (mirror.key_ne known theirs)

/-- A decision about another execution is handed in at the shared desk only. -/
theorem submit_stranger (mirror : Mirror execution pairs foreign shared own) {key : ReviewKey}
    (theirs : key.execution ≠ execution) (decision : Decision) :
    Mirror execution pairs foreign (shared.submit key decision).2 own := by
  refine mirror.frame (mirror.common.submitted key decision) mirror.strangers (fun pair known => ?_)
    fun pair known => ?_
  · exact mirror.common.letter_submit_of_not (held_shared known)
      (fun under => mirror.key_ne known theirs under.2) decision
  · rw [mirror.common.bears_without (held_shared known) (shared.entries_submit key decision)]
    exact and_iff_left (mirror.key_ne known theirs)

/-- Somebody of another execution stands up from the shared desk only. -/
theorem standUp_stranger {seat : Seat}
    (mirror : Mirror execution pairs (seat :: foreign) shared own) :
    Mirror execution pairs foreign (shared.standUp seat) own := by
  have theirs := mirror.strangers seat List.mem_cons_self
  have common := mirror.common.perm List.perm_middle
  refine mirror.frame common.standUp
    (fun other known => mirror.strangers other (List.mem_cons_of_mem seat known))
    (fun pair known => ?_) fun pair known => ?_
  · exact common.letter_standUp List.mem_cons_self (List.mem_cons_of_mem seat (held_shared known))
      (mirror.key_ne known theirs)
  · rw [mirror.common.bears_without (held_shared known) (shared.entries_standUp seat)]
    exact and_iff_left (mirror.key_ne known theirs)

end Mirror

end Desk

end Workflow
