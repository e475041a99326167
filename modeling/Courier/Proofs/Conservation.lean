import Courier.Proofs.Books
import Courier.Proofs.Traffic

/-!
# Messages are conserved

Every number that was given out belongs to a message that is still queued, or that an
acknowledgement took off the outbox, or that was discarded: evicted to make room, discarded as a
reply to an earlier run of a peer that restarted, or given up along with the peer. No message is
counted under two of these, and what is counted as dropped is exactly what was discarded.

What was acknowledged is noted where the program takes in an acknowledgement, which is on reading
an envelope and on adopting a connection; the first may claim anything, and on the second it
counts only if it names the own incarnation, and only for what is left once the replies to an
earlier run are gone.
-/

namespace Courier

namespace Ledger

/-- The messages that a cumulative acknowledgement takes off the outbox. -/
def covered (l : Ledger) (seq : Nat) : List (Entry Parcel) :=
  l.outbox.entries.takeWhile (·.seq ≤ (l.window.acknowledge seq).acked)

/-- The replies that are discarded on a connection of some incarnation of the peer. -/
def outdated (l : Ledger) (incarnation : Incarnation) : List (Entry Parcel) :=
  if Incarnation.restarted l.incarnation incarnation then
    l.outbox.entries.filter fun e => e.body.isReply
  else []

/-- The messages that the acknowledgement of an envelope takes off the outbox. -/
def coveredBy (l : Ledger) (e : Envelope) : List (Entry Parcel) :=
  if 0 < e.ack then l.covered e.ack else []

/-- The messages that the acknowledgement of a greeting takes off the outbox. -/
def coveredByGreeting (l : Ledger) (own : Incarnation) (hello : Hello) : List (Entry Parcel) :=
  if hello.acked = some own then (l.observe hello.incarnation).covered hello.ack else []

/-- How the messages of a ledger are parted where nothing is queued: they stay, or they are
confirmed by an acknowledgement, or they are forfeited and counted as dropped. -/
structure Parted (l after : Ledger) (confirmed forfeited : List (Entry Parcel)) : Prop where
  entries : (after.outbox.entries ++ confirmed ++ forfeited).Perm l.outbox.entries
  sent : after.window.sent = l.window.sent
  acked : ∀ e ∈ confirmed, e.seq ≤ after.window.acked
  dropped : after.tally.dropped = l.tally.dropped + forfeited.length

/-- Every message stays. -/
theorem Parted.kept {l after : Ledger} (entries : after.outbox.entries = l.outbox.entries)
    (sent : after.window.sent = l.window.sent)
    (dropped : after.tally.dropped = l.tally.dropped) : l.Parted after [] [] where
  entries := by simp [entries]
  sent := sent
  acked := nofun
  dropped := dropped

/-- What is not in the books makes no difference to how messages are parted. -/
theorem Parted.books {l middle after : Ledger} {confirmed forfeited : List (Entry Parcel)}
    (parted : l.Parted middle confirmed forfeited) (books : middle.SameBooks after) :
    l.Parted after confirmed forfeited where
  entries := books.entries ▸ parted.entries
  sent := books.sent.trans parted.sent
  acked := books.acked ▸ parted.acked
  dropped := books.dropped.trans parted.dropped

/-- First some messages are forfeited, then some of the others are confirmed. -/
theorem Parted.trans {l middle after : Ledger} {confirmed forfeited : List (Entry Parcel)}
    (first : l.Parted middle [] forfeited) (second : middle.Parted after confirmed []) :
    l.Parted after confirmed forfeited where
  entries := by
    have kept := second.entries
    have before := first.entries
    rw [List.append_nil] at kept before
    exact (kept.append_right forfeited).trans before
  sent := second.sent.trans first.sent
  acked := second.acked
  dropped := second.dropped.trans first.dropped

/-- An acknowledgement confirms what it covers and forfeits nothing. -/
theorem applyAck_parted (l : Ledger) (seq : Nat) :
    l.Parted (l.applyAck seq) (l.covered seq) [] where
  entries := by
    rw [applyAck_entries, List.append_nil]
    exact List.perm_append_comm.trans (.of_eq List.takeWhile_append_dropWhile)
  sent := rfl
  acked e listed := by
    have below : decide (e.seq ≤ (l.window.acknowledge seq).acked) = true :=
      List.mem_takeWhile_imp (p := fun e : Entry Parcel =>
        decide (e.seq ≤ (l.window.acknowledge seq).acked)) listed
    exact of_decide_eq_true below
  dropped := rfl

/-- Heeding an envelope confirms what its acknowledgement covers. -/
theorem heeding_parted (l : Ledger) (e : Envelope) :
    l.Parted (l.heeding e) (l.coveredBy e) [] := by
  unfold heeding coveredBy
  split
  · exact l.applyAck_parted e.ack
  · exact .kept rfl rfl rfl

/-- Replies to an earlier run leave the outbox and are counted as dropped. -/
theorem onRestart_parted (l : Ledger) :
    l.Parted l.onRestart [] (l.outbox.entries.filter fun e => e.body.isReply) := by
  have parts := List.filter_append_perm (fun e : Entry Parcel => !e.body.isReply) l.outbox.entries
  simp only [Bool.not_not] at parts
  have count := parts.length_eq
  rw [List.length_append] at count
  constructor
  case entries =>
    rw [List.append_nil]
    exact parts
  case sent => rfl
  case acked => exact nofun
  case dropped =>
    change l.tally.dropped + (l.outbox.entries.length - (l.outbox.entries.filter fun e =>
      !e.body.isReply).length) = _
    omega

/-- Observing the peer forfeits the replies to an earlier run of it. -/
theorem observe_parted (l : Ledger) (incarnation : Incarnation) :
    l.Parted (l.observe incarnation) [] (l.outdated incarnation) := by
  let seen : Ledger := { l with incarnation := some incarnation }
  have forgotten : seen.Parted seen.onRestart [] (l.outbox.entries.filter fun e =>
    e.body.isReply) := seen.onRestart_parted
  have began : l.Parted seen [] [] := .kept rfl rfl rfl
  unfold observe outdated
  split
  · exact ⟨forgotten.entries, forgotten.sent, forgotten.acked, forgotten.dropped⟩
  · exact began

/-- Of what is left of an earlier run, a greeting confirms what it acknowledges. -/
theorem onConnected_parted (l : Ledger) (own : Incarnation) (hello : Hello) (now : Duration) :
    l.Parted (l.onConnected own hello now) (l.coveredByGreeting own hello)
      (l.outdated hello.incarnation) := by
  have heard : (l.observe hello.incarnation).Parted (if hello.acked = some own then
      (l.observe hello.incarnation).applyAck hello.ack else l.observe hello.incarnation)
        (l.coveredByGreeting own hello) [] := by
    unfold coveredByGreeting
    split
    · exact applyAck_parted _ hello.ack
    · exact .kept rfl rfl rfl
  obtain ⟨entries, sent, acked, dropped⟩ := (l.observe_parted hello.incarnation).trans heard
  exact ⟨entries, sent, acked, dropped⟩

/-- A peer that is given up forfeits everything. -/
theorem surrendered_parted (l : Ledger) : l.Parted l.surrendered [] l.outbox.entries where
  entries := by simp [surrendered, Outbox.clear]
  sent := rfl
  acked := nofun
  dropped := rfl

end Ledger

open Ledger

namespace Session

/-- The messages that an occurrence takes off the outbox because they are acknowledged. -/
def confirms (host : Host) (s : Session) (occurrence : Occurrence) : List (Entry Parcel) :=
  ((s.intake? host occurrence).elim [] fun intake => s.ledger.coveredBy intake.envelope) ++
    (s.adopts? host occurrence).elim [] fun greeted =>
      s.ledger.coveredByGreeting host.incarnation greeted.hello

/-- The messages that an occurrence discards: to make room, because the peer restarted, or because
it is given up. -/
def forfeits (host : Host) (s : Session) (occurrence : Occurrence) : List (Entry Parcel) :=
  s.evicts host occurrence ++
    ((s.adopts? host occurrence).elim [] fun greeted =>
      s.ledger.outdated greeted.hello.incarnation) ++
    if (s.givesUp? host occurrence).isSome then s.ledger.outbox.entries else []

/-- What was acknowledged during a life. -/
def confirmed (host : Host) (s : Session) (life : List Occurrence) : List (Entry Parcel) :=
  s.along host (confirms host) life

/-- What was discarded during a life. -/
def forfeited (host : Host) (s : Session) (life : List Occurrence) : List (Entry Parcel) :=
  s.along host (forfeits host) life

/-- What one occurrence does to the messages. -/
structure Keeps (host : Host) (s : Session) (occurrence : Occurrence) : Prop where
  grown : s.ledger.window.sent ≤ (s.undergo host occurrence).ledger.window.sent
  numbers : (((s.undergo host occurrence).ledger.outbox.entries ++ s.confirms host occurrence ++
      s.forfeits host occurrence).map (·.seq)).Perm
    (s.ledger.outbox.entries.map (·.seq) ++ List.range' (s.ledger.window.sent + 1)
      ((s.undergo host occurrence).ledger.window.sent - s.ledger.window.sent))
  dropped : (s.undergo host occurrence).ledger.tally.dropped =
    s.ledger.tally.dropped + (s.forfeits host occurrence).length
  acked : ∀ e ∈ s.confirms host occurrence, e.seq ≤ (s.undergo host occurrence).ledger.window.acked

section Occurrences

variable {host : Host} {s : Session} {occurrence : Occurrence}

/-- Nothing is evicted where no number is given out. -/
theorem evicts_unsent
    (sent : (s.undergo host occurrence).ledger.window.sent = s.ledger.window.sent) :
    s.evicts host occurrence = [] := by
  unfold evicts
  rw [sent, if_neg (Nat.lt_irrefl _)]

/-- Where nothing is queued, the messages of the ledger are parted. -/
theorem Keeps.parted {confirmed forfeited : List (Entry Parcel)}
    (parted : s.ledger.Parted (s.undergo host occurrence).ledger confirmed forfeited)
    (confirms : s.confirms host occurrence = confirmed)
    (forfeits : s.forfeits host occurrence = forfeited) : s.Keeps host occurrence where
  grown := Nat.le_of_eq parted.sent.symm
  numbers := by
    rw [parted.sent, Nat.sub_self, List.range'_zero, List.append_nil, confirms, forfeits]
    exact parted.entries.map _
  dropped := forfeits ▸ parted.dropped
  acked := confirms ▸ parted.acked

/-- Making room evicts the message that is missing afterwards. -/
theorem evicts_queued {limit : Nat} (orderly : s.ledger.Orderly limit) (made : Outbox Parcel)
    (evicted : Option (Entry Parcel)) (parcel : Parcel) (now : Duration)
    (room : s.ledger.outbox.makeRoom = .ok (made, evicted))
    (books : (s.ledger.queued made evicted parcel now).SameBooks
      (s.undergo host occurrence).ledger) :
    s.evicts host occurrence = evicted.toList := by
  have parts := (s.ledger.outbox.makeRoom_entries made evicted room).1
  have entries : (s.undergo host occurrence).ledger.outbox.entries =
      made.entries ++ [⟨s.ledger.window.sent + 1, parcel, now⟩] := books.entries
  have sent : (s.undergo host occurrence).ledger.window.sent = s.ledger.window.sent + 1 :=
    books.sent
  have ordered := orderly.ordered
  rw [← parts, List.pairwise_append] at ordered
  have gone : ∀ e ∈ evicted.toList, e ∉ (s.undergo host occurrence).ledger.outbox.entries := by
    intro e listed among
    rw [entries] at among
    rcases List.mem_append.mp among with stays | new
    · exact Nat.lt_irrefl _ (ordered.2.2 e listed e stays)
    · -- The new message has a number that none of the old ones has.
      have old := (orderly.between e (parts ▸ List.mem_append_left _ listed)).2
      rw [List.mem_singleton.mp new] at old
      exact Nat.not_succ_le_self _ old
  unfold evicts
  have stays : ∀ e ∈ made.entries, e ∈ (s.undergo host occurrence).ledger.outbox.entries := by
    rw [entries]
    exact fun e => List.mem_append_left _
  rw [if_pos (sent ▸ Nat.lt_succ_self _), ← parts, Entry.missing_append, Entry.missing_nil stays,
    List.append_nil]
  exact List.filter_eq_self.mpr fun e listed => decide_eq_true (gone e listed)

end Occurrences

/-- Every occurrence keeps account of the messages. There is one case for each entry in the books,
and each entry parts the messages in one way. -/
theorem keeps (host : Host) (s : Session) {limit : Nat} (orderly : s.ledger.Orderly limit)
    (occurrence : Occurrence) : s.Keeps host occurrence := by
  have unconfirmed (unread : s.intake? host occurrence = none)
      (unopened : s.adopts? host occurrence = none) : s.confirms host occurrence = [] := by
    simp [confirms, unread, unopened]
  have unforfeited (unopened : s.adopts? host occurrence = none)
      (sent : (s.undergo host occurrence).ledger.window.sent = s.ledger.window.sent)
      (giveUps : (s.undergo host occurrence).ledger.tally.giveUps = s.ledger.tally.giveUps) :
      s.forfeits host occurrence = [] := by
    simp [forfeits, evicts_unsent sent, unopened, givesUp?_kept giveUps]
  cases s.booked host occurrence with
  | kept uncalled unread unopened books =>
    exact .parted (.kept books.entries books.sent books.dropped) (unconfirmed unread unopened)
      (unforfeited unopened books.sent books.giveUps)
  | renewed called unread unopened books =>
    exact .parted (.kept books.entries books.sent books.dropped) (unconfirmed unread unopened)
      (unforfeited unopened books.sent books.giveUps)
  | missed now fails more books =>
    obtain ⟨_, unread, unopened⟩ := fails.unread host
    exact .parted (.kept books.entries books.sent books.dropped) (unconfirmed unread unopened)
      (unforfeited unopened books.sent books.giveUps)
  | queued made evicted parcel now uncalled unread unopened room books =>
    have giveUps : (s.ledger.queued made evicted parcel now).tally.giveUps =
        s.ledger.tally.giveUps := by
      cases evicted <;> rfl
    have forfeits : s.forfeits host occurrence = evicted.toList := by
      simp [forfeits, evicts_queued orderly made evicted parcel now room books, unopened,
        givesUp?_kept (books.giveUps.trans giveUps)]
    have sent : (s.undergo host occurrence).ledger.window.sent = s.ledger.window.sent + 1 :=
      books.sent
    have entries : (s.undergo host occurrence).ledger.outbox.entries =
        made.entries ++ [⟨s.ledger.window.sent + 1, parcel, now⟩] := books.entries
    constructor
    case grown => omega
    case numbers =>
      rw [unconfirmed unread unopened, forfeits, entries, sent, List.append_nil,
        Nat.add_sub_cancel_left, ← (s.ledger.outbox.makeRoom_entries made evicted room).1]
      simp only [List.map_append, List.map_cons, List.map_nil, List.range'_one]
      exact List.perm_append_comm.trans (.of_eq (List.append_assoc _ _ _).symm)
    case dropped =>
      rw [forfeits, books.dropped]
      cases evicted <;> rfl
    case acked => simp [unconfirmed unread unopened]
  | heeded intake uncalled read unopened books =>
    have sent := (s.ledger.heeding_parted intake.envelope).sent
    have giveUps := (s.ledger.heeding_bears intake.envelope).giveUps
    refine .parted ((s.ledger.heeding_parted intake.envelope).books books) ?_ ?_
    · simp [confirms, read, unopened]
    · exact unforfeited unopened (books.sent.trans sent) (books.giveUps.trans giveUps)
  | adopted greeted now uncalled unread opened books =>
    have parted := (s.ledger.onConnected_parted host.incarnation greeted.hello now).books books
    have giveUps := (s.ledger.onConnected_bears host.incarnation greeted.hello now).giveUps
    refine .parted parted ?_ ?_
    · simp [confirms, unread, opened]
    · simp [forfeits, evicts_unsent parted.sent, opened,
        givesUp?_kept (books.giveUps.trans giveUps)]
  | gaveUp now fails limited spent books =>
    obtain ⟨_, unread, unopened⟩ := fails.unread host
    have parted := (s.failing now).surrendered_parted.books books
    have gaveUp : (s.givesUp? host occurrence).isSome := by
      have more : (s.undergo host occurrence).ledger.tally.giveUps = s.ledger.tally.giveUps + 1 :=
        books.giveUps
      simp [givesUp?, more]
    have lost : s.ledger.Parted (s.undergo host occurrence).ledger [] s.ledger.outbox.entries :=
      ⟨parted.entries, parted.sent, parted.acked, parted.dropped⟩
    refine .parted lost (unconfirmed unread unopened) ?_
    simp [forfeits, evicts_unsent lost.sent, unopened, gaveUp]

/-- What an acknowledgement takes off the outbox was queued. -/
theorem confirms_queued (host : Host) (s : Session) (occurrence : Occurrence) :
    ∀ e ∈ s.confirms host occurrence, e ∈ s.ledger.outbox.entries := by
  have taken (l : Ledger) (seq : Nat) : ∀ e ∈ l.covered seq, e ∈ l.outbox.entries :=
    fun e listed => List.takeWhile_subset _ listed
  intro e listed
  rcases List.mem_append.mp listed with heard | greeted
  · cases read : s.intake? host occurrence with
    | none => simp [read] at heard
    | some intake =>
      simp only [read, Option.elim_some, coveredBy] at heard
      split at heard
      · exact taken _ _ e heard
      · cases heard
  · cases opened : s.adopts? host occurrence with
    | none => simp [opened] at greeted
    | some other =>
      simp only [opened, Option.elim_some, coveredByGreeting] at greeted
      split at greeted
      · exact ((s.ledger.observe_parted other.hello.incarnation).entries.subset
          (by simpa using .inl (taken _ _ e greeted)))
      · cases greeted

/-- What is discarded was queued. -/
theorem forfeits_queued (host : Host) (s : Session) (occurrence : Occurrence) :
    ∀ e ∈ s.forfeits host occurrence, e ∈ s.ledger.outbox.entries := by
  intro e listed
  rcases List.mem_append.mp listed with others | all
  · rcases List.mem_append.mp others with evicted | outdated
    · unfold evicts at evicted
      split at evicted
      · exact (List.mem_filter.mp evicted).1
      · cases evicted
    · cases opened : s.adopts? host occurrence with
      | none => simp [opened] at outdated
      | some other =>
        simp only [opened, Option.elim_some, Ledger.outdated] at outdated
        split at outdated
        · exact (List.mem_filter.mp outdated).1
        · cases outdated
  · split at all
    · exact all
    · cases all

/-- What is retired in a life is what acknowledgements take off the outbox, and what they would
have taken off it if it had not been discarded on the same occasion. -/
theorem live_retires (host : Host) (peer : PeerId) (life : List Occurrence)
    (occurrence : Occurrence) (seq : Nat) :
    seq ∈ ((fresh peer host.options).live host life).retires
        (((fresh peer host.options).live host life).undergo host occurrence) ↔
      seq ∈ (((fresh peer host.options).live host life).confirms host occurrence).map (·.seq) ∨
        seq ∈ (((fresh peer host.options).live host life).forfeits host occurrence).map (·.seq) ∧
          seq ≤ (((fresh peer host.options).live host life).undergo host
            occurrence).ledger.window.acked := by
  have regular := live_regular_max host peer life
  have orderly := (undergo_regular host _ host.options.room_pos regular occurrence).2.toOrderly
  have keeps := keeps host _ regular.toOrderly occurrence
  generalize (fresh peer host.options).live host life = s at *
  have retired {e : Entry Parcel} (queued : e ∈ s.ledger.outbox.entries)
      (low : e.seq ≤ (s.undergo host occurrence).ledger.window.acked) :
      e.seq ∈ s.retires (s.undergo host occurrence) :=
    List.mem_map_of_mem (List.mem_filter.mpr ⟨queued, decide_eq_true low⟩)
  constructor
  · intro retired
    obtain ⟨e, covered, rfl⟩ := List.mem_map.mp retired
    obtain ⟨queued, low⟩ := List.mem_filter.mp covered
    have low := of_decide_eq_true low
    -- The message was queued, and it is not queued any more.
    have parts := keeps.numbers.symm.subset (List.mem_append_left _ (List.mem_map_of_mem queued))
    rw [List.map_append, List.map_append] at parts
    rcases List.mem_append.mp parts with others | forfeited
    · rcases List.mem_append.mp others with stays | confirmed
      · obtain ⟨f, among, same⟩ := List.mem_map.mp stays
        have high := (orderly.between f among).1
        rw [same] at high
        exact absurd low (Nat.not_le_of_lt high)
      · exact .inl confirmed
    · exact .inr ⟨forfeited, low⟩
  · rintro (confirmed | ⟨forfeited, low⟩)
    · obtain ⟨e, listed, rfl⟩ := List.mem_map.mp confirmed
      exact retired (s.confirms_queued host occurrence e listed) (keeps.acked e listed)
    · obtain ⟨e, listed, rfl⟩ := List.mem_map.mp forfeited
      exact retired (s.forfeits_queued host occurrence e listed) low

/-- What a life makes of the messages. -/
structure Conserves (host : Host) (origin : Session) (life : List Occurrence) : Prop where
  /-- What was sent is queued, was acknowledged, or is counted as dropped. -/
  total : (origin.live host life).ledger.window.sent =
    (origin.live host life).ledger.outbox.size + (origin.confirmed host life).length +
      (origin.live host life).ledger.tally.dropped
  /-- Each number given out is that of one message queued, acknowledged or discarded. -/
  numbers : (((origin.live host life).ledger.outbox.entries ++ origin.confirmed host life ++
      origin.forfeited host life).map (·.seq)).Perm
    (List.range' 1 (origin.live host life).ledger.window.sent)
  /-- What is counted as dropped was discarded. -/
  dropped : (origin.live host life).ledger.tally.dropped = (origin.forfeited host life).length
  /-- What was acknowledged is below the number acknowledged. -/
  acked : ∀ e ∈ origin.confirmed host life, e.seq ≤ (origin.live host life).ledger.window.acked

/-- As every number is that of one message, there are as many messages as numbers. -/
theorem conserves_of {host : Host} {origin : Session} {life : List Occurrence}
    (numbers : (((origin.live host life).ledger.outbox.entries ++ origin.confirmed host life ++
      origin.forfeited host life).map (·.seq)).Perm
        (List.range' 1 (origin.live host life).ledger.window.sent))
    (dropped : (origin.live host life).ledger.tally.dropped =
      (origin.forfeited host life).length)
    (acked : ∀ e ∈ origin.confirmed host life,
      e.seq ≤ (origin.live host life).ledger.window.acked) : origin.Conserves host life where
  total := by
    have total := numbers.length_eq
    rw [List.length_map, List.length_append, List.length_append, List.length_range'] at total
    rw [dropped]
    exact total.symm
  numbers := numbers
  dropped := dropped
  acked := acked

/-- One more occurrence conserves the messages, if it keeps account of them. -/
theorem Conserves.onward {host : Host} {origin : Session} {life : List Occurrence}
    (conserves : origin.Conserves host life) (occurrence : Occurrence)
    (keeps : (origin.live host life).Keeps host occurrence)
    (acked : (origin.live host life).ledger.window.acked ≤
      ((origin.live host life).undergo host occurrence).ledger.window.acked) :
    origin.Conserves host (life ++ [occurrence]) := by
  apply conserves_of
  case numbers =>
    -- Each number occurs as often afterwards as before, apart from the new ones.
    have given := List.range'_append_1 (s := 1) (m := (origin.live host life).ledger.window.sent)
      (n := ((origin.live host life).undergo host occurrence).ledger.window.sent -
        (origin.live host life).ledger.window.sent)
    rw [Nat.add_sub_cancel' keeps.grown, Nat.add_comm 1] at given
    rw [confirmed, forfeited, along_append_one, along_append_one, live_append, live_one,
      List.perm_iff_count]
    intro number
    have before := conserves.numbers.count_eq number
    have now := keeps.numbers.count_eq number
    simp only [confirmed, forfeited] at before
    simp only [← given, List.map_append, List.count_append] at before now ⊢
    omega
  case dropped =>
    rw [forfeited, along_append_one, live_append, live_one, keeps.dropped, conserves.dropped,
      List.length_append, forfeited]
  case acked =>
    rw [confirmed, along_append_one, live_append, live_one]
    intro e listed
    rcases List.mem_append.mp listed with old | new
    · exact (conserves.acked e old).trans acked
    · exact keeps.acked e new

/-- Every session conserves its messages, whatever its peer writes and whichever policy its outbox
has. -/
theorem live_conserves (host : Host) (peer : PeerId) (life : List Occurrence) :
    (fresh peer host.options).Conserves host life := by
  induction life using List.reverseRecOn with
  | nil => exact conserves_of (.refl _) rfl nofun
  | append_singleton life occurrence inductionHypothesis =>
    have regular := live_regular_max host peer life
    have advances := (undergo_regular host _ host.options.room_pos regular occurrence).1
    exact inductionHypothesis.onward occurrence (keeps host _ regular.toOrderly occurrence)
      advances.acked

end Session

end Courier
