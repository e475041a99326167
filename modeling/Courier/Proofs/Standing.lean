import Courier.Proofs.Attending

/-!
# What holds of a run

The log vouches for all that a run knows: its ledger, its connections, the bindings that wait
for a reply, the message that its application is at work on, and the greeting of its attempt
to connect. A turn keeps this once the log tells what the turn heard. What the turn writes is
true then, and its outcomes go back to the log: a reply settles the promise of the message
that it answers, and an acknowledgement retires what was counted.
-/

namespace Courier

open Json

namespace Traffic

/-- Whether the message that the application of a run is at work on was promised under the
binding that the reply is to name. -/
def Works (log : List Note) (a : Actor) (r : Run) : Prop :=
  ∀ n, r.session.stage = .handling (some n) → ∃ errand k, r.errand = some errand ∧
    r.session.ledger.incarnation = some k ∧ errand.sender = some k ∧ n ≤ maxWord ∧
    ∃ promise, ⟨a.across k, .promised errand.seq errand.payload n promise⟩ ∈ log

/-- What holds of a run. -/
structure Stands (log : List Note) (passage : Nat → Passage) (a : Actor) (r : Run) : Prop where
  trusts : Trusts log a r.session.ledger
  attends : Attends log passage a r.session
  bound : ∀ binding ∈ r.session.ledger.bindings,
    ∃ seq payload, ⟨a, .promised seq payload binding.1 binding.2⟩ ∈ log
  works : Works log a r
  dials : ∀ dial, r.session.dial = some dial → Vouches log a dial.hello

/-- What a run reads: the envelope of something true that a run of the other kernel wrote for
it. -/
structure Hears (log : List Note) (a : Actor) (k : Incarnation) (e : Envelope) : Prop where
  small : e.seq ≤ maxWord
  ack : Acknowledged log a e.ack
  parcel : ∀ parcel, e.body = .ok (some (.parcel parcel)) →
    Backed log (a.across k) (some a.run) e.seq parcel

/-- What a turn writes is for the run at the other end of the live connection. -/
def Writes (log : List Note) (a : Actor) (s : Session) (effects : List Effect) : Prop :=
  ∀ c, ∀ d ∈ effects.flatMap (Effect.writes c), ∃ link, s.link = some link ∧
    link.endpoint.connection = c ∧
    ∀ k, s.ledger.incarnation = some k → Utters log a k d

variable {log : List Note} {passage : Nat → Passage} {a : Actor} {r : Run} {s after : Session}
  {host : Host} {now : Nat} {event : Event} {effects : List Effect}

/-- What the application is at work on stays promised as the log grows. -/
theorem Works.grow {later : List Note} (works : Works log a r) (grown : log ⊆ later) :
    Works later a r := by
  intro n stage
  obtain ⟨errand, k, held, known, sender, small, promise, noted⟩ := works n stage
  exact ⟨errand, k, held, known, sender, small, promise, grown noted⟩

/-- A run stands as the log grows and its connections last, unless the run makes a promise. -/
theorem Stands.lasts {later : List Note} {onward : Nat → Passage}
    (stands : Stands log passage a r) (grown : log ⊆ later)
    (old : ∀ seq payload n promise, ⟨a, .promised seq payload n promise⟩ ∈ later →
      ⟨a, .promised seq payload n promise⟩ ∈ log)
    (lasts : ∀ c, (passage c).joined a.party = true → (passage c).run a.party = some a.run →
      (passage c).Lasts (onward c) a.party) : Stands later onward a r where
  trusts := stands.trusts.grow grown old
  attends := stands.attends.lasts grown lasts
  bound := by
    intro binding listed
    obtain ⟨seq, payload, noted⟩ := stands.bound binding listed
    exact ⟨seq, payload, grown noted⟩
  works := stands.works.grow grown
  dials := fun dial begun => (stands.dials dial begun).grow grown

/-- A run stands that hears nothing and queues nothing. -/
theorem Stands.spared (stands : Stands log passage a r) {commands : List Command}
    (spared : r.session.Spared commands after) (other : ∀ greeted, .attach greeted ∉ commands) :
    Stands log passage a { r with session := after } where
  trusts := stands.trusts.same spared.outbox (by rw [spared.window]) (by rw [spared.window])
    (by rw [spared.window]) spared.incarnation spared.nextBinding
  attends := by
    refine stands.attends.fewer ?_ (spared.link.imp_right (⟨·, spared.incarnation⟩)) ?_
    · rw [← r.session.ends_pushed commands other]
      exact Session.ends_fewer _ _ spared.link spared.commands
    · intro greeted waits
      exact (List.mem_append.mp (spared.commands.subset waits)).resolve_right (other greeted)
  bound := fun binding listed => stands.bound binding (spared.bindings ▸ listed)
  works := by
    intro n stage
    rcases spared.stage with same | ended
    · obtain ⟨errand, k, held, known, rest⟩ := stands.works n (same ▸ stage)
      exact ⟨errand, k, held, spared.incarnation.trans known, rest⟩
    · cases ended.symm.trans stage
  dials := by
    intro dial begun
    rcases spared.dial with gone | same
    · cases gone.symm.trans begun
    · exact stands.dials dial (same ▸ begun)

/-- A run stands that queues a message with a promise, once the promise is noted. -/
theorem Stands.promised (stands : Stands log passage a r) (payload : List UInt8)
    (promise : PromiseId) (made : Outbox Parcel) (evicted : Option (Entry Parcel))
    (room : r.session.ledger.outbox.makeRoom = .ok (made, evicted)) (now : Duration)
    (tally : Tally) : Stands (log ++ a.notes
      [.promised (r.session.ledger.window.sent + 1) payload r.session.ledger.nextBinding promise])
      passage a { r with session := { r.session with
        ledger := { r.session.ledger with
          window := { r.session.ledger.window with sent := r.session.ledger.window.sent + 1 }
          outbox := made.enqueue (r.session.ledger.window.sent + 1)
            (.message payload (some r.session.ledger.nextBinding)) now
          bindings := r.session.ledger.bindings ++ [(r.session.ledger.nextBinding, promise)]
          nextBinding := r.session.ledger.nextBinding + 1
          tally }
        woken := true } } := by
  have trusts := stands.trusts
  generalize later : log ++ a.notes
    [.promised (r.session.ledger.window.sent + 1) payload r.session.ledger.nextBinding promise] =
      noted
  have grown : log ⊆ noted := later ▸ List.subset_append_left _ _
  have news : ⟨a, .promised (r.session.ledger.window.sent + 1) payload
      r.session.ledger.nextBinding promise⟩ ∈ noted :=
    later ▸ List.mem_append_right _ (List.mem_singleton_self _)
  refine ⟨?_, ?_, ?_, stands.works.grow grown,
    fun dial begun => (stands.dials dial begun).grow grown⟩
  · refine trusts.push grown made evicted room
      (.message payload (some r.session.ledger.nextBinding)) now rfl rfl rfl rfl rfl
      (Nat.le_refl _) ?_ ?_
    · intro seq payload n other among
      rw [← later] at among
      rcases List.mem_append.mp among with old | new
      · exact Nat.lt_succ_of_lt (trusts.fresh _ _ _ _ old)
      · cases List.mem_singleton.mp new
        exact Nat.lt_succ_self _
    · rintro n ⟨⟩
      exact ⟨trusts.numbered, promise, news⟩
  · exact (stands.attends.lasts grown fun _ joined _ => .refl joined).steady (.inr rfl)
      (List.suffix_refl _) rfl
  · intro binding listed
    rcases List.mem_append.mp listed with old | last
    · obtain ⟨seq, payload, before⟩ := stands.bound binding old
      exact ⟨seq, payload, grown before⟩
    · rw [List.mem_singleton.mp last]
      exact ⟨_, _, news⟩

/-- What stands in front of the buffer was written for the run. -/
theorem Attends.hears (attends : Attends log passage a s)
    (spoken : ∀ c, (passage c).Spoken log a.party.other) (link : Link)
    (held : s.link = some link) (e : Envelope) (rest : ByteArray)
    (complete : Frame.next? link.buffer = .ok (some (e, rest))) :
    (passage link.endpoint.connection).Past a.party rest ∧
      ∃ k, s.ledger.incarnation = some k ∧
        (passage link.endpoint.connection).run a.party.other = some k ∧ Hears log a k e := by
  obtain ⟨past, k, known, theirs⟩ := attends.link link held
  obtain ⟨_, ours⟩ := attends.ours _ (Holds.link_ends s link held)
  obtain ⟨onward, j, d, greeted, reads, utters⟩ :=
    past.read (spoken _) a.run ours e rest complete
  cases theirs.symm.trans greeted
  refine ⟨onward, k, known, theirs, reads.bounded.1, ?_, ?_⟩
  · rw [reads.ack]
    exact utters.ack.imp_right fun noted => ⟨k, d.ack, Nat.le_refl _, noted⟩
  · intro parcel body
    have said := (utters.reads reads).symm.trans body
    rw [reads.seq]
    exact utters.parcel parcel (Option.some.inj (Except.ok.inj said))

section Writing

/-- What asks for no writing writes nothing untrue. -/
theorem writes_nothing (mute : ∀ effect ∈ effects, ∀ c, effect.writes c = []) :
    Writes log a s effects := by
  intro c d listed
  obtain ⟨effect, asked, wrote⟩ := List.mem_flatMap.mp listed
  rw [mute effect asked c] at wrote
  cases wrote

/-- What is silent writes nothing untrue. -/
theorem writes_silent (silent : ∀ effect ∈ effects, effect.isSilent = true) :
    Writes log a s effects := by
  refine writes_nothing fun effect asked c => ?_
  have quiet := silent effect asked
  cases effect with
  | write => cases quiet
  | _ => rfl

/-- What is written to the live connection. -/
theorem writes_link (link : Link) (held : s.link = some link) (dispatches : List Dispatch)
    (truly : ∀ k, s.ledger.incarnation = some k → ∀ d ∈ dispatches, Utters log a k d) :
    Writes log a s (Session.writings link.endpoint dispatches) := by
  intro c d listed
  obtain ⟨effect, asked, wrote⟩ := List.mem_flatMap.mp listed
  unfold Session.writings at asked
  split at asked
  · cases asked
  · rw [List.mem_singleton.mp asked, Effect.writes] at wrote
    split at wrote
    · next here => exact ⟨link, held, here, fun k known => truly k known d wrote⟩
    · cases wrote

/-- What a trusted ledger has to send is true for the incarnation that it names. -/
theorem Trusts.utters (trusts : Trusts log a s.ledger) (k : Incarnation)
    (known : s.ledger.incarnation = some k) : ∀ d ∈ s.dispatches, Utters log a k d := by
  intro d listed
  obtain ⟨e, queued, framed⟩ := List.mem_filterMap.mp listed
  obtain ⟨body, seq, ack, _⟩ := Dispatch.of?_eq _ _ _ d framed
  have held : e ∈ s.ledger.outbox.entries := List.mem_of_mem_drop queued
  refine ⟨Dispatch.of?_formed _ _ _ d framed, ack ▸ trusts.earned k known, ?_, ?_⟩
  · intro parcel same
    cases body.symm.trans same
    rw [seq, ← known]
    exact (trusts.queued e held).2
  · intro hello same
    cases body.symm.trans same

/-- A flush writes what a trusted ledger has to send, which is true. -/
theorem flushed_writes (flushed : Flushed s after effects) (trusts : Trusts log a s.ledger) :
    Writes log a s effects := by
  cases flushed with
  | nothing => exact writes_silent nofun
  | written link writes => exact writes_link link writes.1 s.dispatches trusts.utters

/-- A flush leaves the ledger trusted. -/
theorem flushed_trusts (flushed : Flushed s after effects) (trusts : Trusts log a s.ledger) :
    Trusts log a after.ledger := by
  cases flushed with
  | nothing => exact trusts
  | written => exact trusts.fewer (.refl _) rfl rfl rfl rfl trusts.acked

/-- What is written holds for an earlier session with the same connection. -/
theorem Writes.before {t : Session} (writes : Writes log a t effects)
    (link : t.link = none ∨ t.link = s.link)
    (known : t.ledger.incarnation = s.ledger.incarnation) : Writes log a s effects := by
  intro c d listed
  obtain ⟨live, held, here, truly⟩ := writes c d listed
  rcases link with gone | same
  · cases gone.symm.trans held
  · exact ⟨live, same ▸ held, here, known ▸ truly⟩

end Writing

/-- A quiet turn leaves the ledger trusted. -/
theorem quiet_trusts (quiet : s.Quiet host after) (trusts : Trusts log a s.ledger) :
    Trusts log a after.ledger :=
  trusts.same quiet.outbox quiet.sent quiet.acked quiet.received quiet.incarnation
    quiet.nextBinding

/-- A true envelope is taken in. -/
theorem took_trusts {e : Envelope} (took : Took e s after effects) (trusts : Trusts log a s.ledger)
    (k : Incarnation) (hears : Hears log a k e)
    (rises : s.ledger.window.received < after.ledger.window.received →
      ∃ k, s.ledger.incarnation = some k ∧
        ⟨a, .counted (some k) after.ledger.window.received⟩ ∈ log) :
    Trusts log a after.ledger := by
  have leaves := took.leaves
  have deaf := s.ledger.heeding_deaf e
  have known : (s.ledger.heeding e).incarnation = s.ledger.incarnation := by
    obtain ⟨_, _, same⟩ := s.ledger.heeding_eq e
    rw [same]
  have heeded : Trusts log a (s.ledger.heeding e) :=
    s.ledger.heeding_keeps e trusts (trusts.heeded e.ack hears.ack)
  have bounds : s.ledger.window.received ≤ after.ledger.window.received ∧
      after.ledger.window.received ≤ maxWord := by
    rcases leaves.received with same | most
    · exact ⟨Nat.le_of_eq same.symm, same ▸ trusts.small⟩
    · rw [most]
      exact ⟨Nat.le_max_left _ _, Nat.max_le.mpr ⟨trusts.small, hears.small⟩⟩
  refine heeded.raised leaves.outbox leaves.sent leaves.acked
    (leaves.incarnation.trans known.symm) leaves.nextBinding bounds.2 ?_ ?_
  · rw [known, deaf.received]
    exact rises
  · rw [deaf.received]
    exact bounds.1

/-- What a turn takes up is true, and what it heard was noted. -/
structure Grounds (log : List Note) (a : Actor) (s : Session) (event : Event)
    (after : Session) : Prop where
  greeted : ∀ greeted, .attach greeted ∈ s.commands ∨ event = .dialed (.ok greeted) →
    Vouches log (a.across greeted.hello.incarnation) greeted.hello
  replied : ∀ n payload, s.stage = .handling (some n) → event = .replied (some payload) →
    n ≤ maxWord ∧ ∃ k, s.ledger.incarnation = some k ∧ Answers log a k n payload
  heard : ∀ link e rest, s.link = some link → Frame.next? link.buffer = .ok (some (e, rest)) →
    ∃ k, Hears log a k e
  counted : s.link.isSome → s.ledger.window.received < after.ledger.window.received →
    ∃ k, s.ledger.incarnation = some k ∧
      ⟨a, .counted (some k) after.ledger.window.received⟩ ∈ log

/-- A turn keeps the ledger trusted, and writes what is true. There is one case for each thing that
a turn may mean for the messages; in each of them the log vouches for what changed. -/
theorem moved_trusts (moved : Moved host now s event after effects)
    (own : host.incarnation = a.run) (trusts : Trusts log a s.ledger)
    (grounds : Grounds log a s event after) :
    Trusts log a after.ledger ∧ Writes log a s effects := by
  cases moved with
  | quiet _ _ _ quiet silent => exact ⟨quiet_trusts quiet trusts, writes_silent silent⟩
  | joined _ greeted t _ quiet origin link silent =>
    have began : Trusts log a ({ t.ledger with phase := .connected }.count
        (if t.link.isSome then Tally.duplicate else id)) := (quiet_trusts quiet trusts).same
    refine ⟨?_, writes_silent silent⟩
    change Trusts log a (Ledger.onConnected _ host.incarnation _ _)
    rw [own]
    refine began.connected greeted.hello _ (grounds.greeted greeted ?_)
    rcases origin with first | dialed
    · exact .inl (first ▸ List.mem_cons_self)
    · exact .inr dialed.1
  | flushed _ t flushed _ _ before flush behind =>
    have began := quiet_trusts before trusts
    exact ⟨quiet_trusts behind (flushed_trusts flush began),
      (flushed_writes flush began).before before.link before.incarnation⟩
  | replied replyTo payload ledger _ _ stage queued flush =>
    obtain ⟨made, evicted, tally, room, _, rfl⟩ := s.ledger.enqueueReply_eq _ _ _ _ queued
    have replied : Trusts log a { s.ledger with
        window := { s.ledger.window with sent := s.ledger.window.sent + 1 }
        outbox := made.enqueue (s.ledger.window.sent + 1) (.reply replyTo payload) (.ofMillis now)
        tally } :=
      trusts.push (List.Subset.refl _) made evicted room _ (.ofMillis now) rfl rfl rfl rfl rfl
        (Nat.le_succ _) trusts.fresh (grounds.replied replyTo payload stage rfl)
    exact ⟨flushed_trusts flush replied, (flushed_writes flush replied).before (.inr rfl) rfl⟩
  | acknowledged _ link _ held quiet =>
    refine ⟨quiet_trusts quiet trusts, writes_link link held _ fun k known d listed => ?_⟩
    have framed := Option.mem_toList.mp listed
    obtain ⟨body, _, ack, _⟩ := Dispatch.of?_eq _ _ _ d framed
    refine ⟨Dispatch.of?_formed _ _ _ d framed, ack ▸ trusts.earned k known, ?_, ?_⟩
    · intro parcel same
      cases body.symm.trans same
    · intro hello same
      cases body.symm.trans same
  | received => exact ⟨trusts.same, writes_silent nofun⟩
  | read link e rest _ _ held complete took =>
    obtain ⟨k, hears⟩ := grounds.heard link e rest held complete
    refine ⟨took_trusts took trusts k hears (grounds.counted (by simp [held])), ?_⟩
    refine writes_nothing fun effect asked c => ?_
    cases took with
    | message | settled =>
      rw [List.mem_singleton.mp asked]
      rfl
    | _ => cases asked
  | gaveUp error _ t quiet cleared =>
    subst cleared
    have before := quiet_trusts quiet trusts
    exact ⟨before.fewer (List.nil_sublist _) rfl rfl rfl rfl before.acked,
      writes_silent s.rejections_silent⟩

/-- A turn keeps what a run has of its connections. Only adopting a connection and reading change
what a run has. -/
theorem moved_attends (moved : Moved host now s event after effects)
    (attends : Attends log passage a s)
    (spoken : ∀ c, (passage c).Spoken log a.party.other)
    (unread : ∀ bytes, event ≠ .received bytes)
    (reached : ∀ greeted, event = .dialed (.ok greeted) →
      Attends log passage a { s with commands := .attach greeted :: s.commands }) :
    Attends log passage a after := by
  cases moved with
  | quiet _ _ _ quiet => exact attends.steady quiet.link quiet.commands quiet.incarnation
  | joined _ greeted t _ quiet origin link =>
    have known := (t.joined_seen host now greeted).1
    rcases origin with first | ⟨rfl, same⟩
    · exact attends.joins greeted _ first rfl rfl rfl known
    · refine (reached greeted rfl).joins greeted _ ?_ rfl rfl rfl known
      dsimp only
      rw [← same]
      rfl
  | flushed _ t flushed _ _ before flush behind =>
    have began := attends.steady before.link before.commands before.incarnation
    have wrote : Attends log passage a flushed := by
      cases flush with
      | nothing => exact began
      | written => exact began.steady (.inr rfl) (List.suffix_refl _) rfl
    exact wrote.steady behind.link behind.commands behind.incarnation
  | replied replyTo payload ledger _ _ stage queued flush =>
    obtain ⟨made, evicted, tally, room, _, rfl⟩ := s.ledger.enqueueReply_eq _ _ _ _ queued
    cases flush with
    | nothing => exact attends.steady (.inr rfl) (List.suffix_refl _) rfl
    | written => exact attends.steady (.inr rfl) (List.suffix_refl _) rfl
  | acknowledged _ link _ held quiet =>
    exact attends.steady quiet.link quiet.commands quiet.incarnation
  | received bytes => exact absurd rfl (unread bytes)
  | read link e rest _ _ held complete took =>
    have leaves := took.leaves
    obtain ⟨past, _⟩ := attends.hears spoken link held e rest complete
    exact attends.reads link held rest leaves.link (leaves.commands ▸ List.suffix_refl _)
      leaves.incarnation past ⟨rfl, rfl⟩ fun _ _ => rfl
  | gaveUp error _ t quiet cleared =>
    subst cleared
    exact attends.steady quiet.link quiet.commands quiet.incarnation

/-- An attempt to connect greets with what the ledger holds. -/
theorem moved_dials (moved : Moved host now s event after effects) :
    ∀ dial, after.dial = some dial → s.dial = some dial ∨ dial.hello = host.hello s.ledger := by
  cases moved with
  | quiet _ _ _ quiet => exact quiet.dial
  | joined => exact nofun
  | flushed _ t flushed _ _ before flush behind =>
    intro dial begun
    have same : flushed.dial = t.dial ∧ host.hello flushed.ledger = host.hello s.ledger := by
      have hello : host.hello t.ledger = host.hello s.ledger := by
        unfold Host.hello
        rw [before.received, before.incarnation]
      cases flush with
      | nothing => exact ⟨rfl, hello⟩
      | written => exact ⟨rfl, hello⟩
    rcases behind.dial dial begun with held | fresh
    · exact before.dial dial (same.1 ▸ held)
    · exact .inr (fresh.trans same.2)
  | replied replyTo payload ledger _ _ stage queued flush => cases flush <;> exact fun _ => .inl
  | acknowledged _ link _ held quiet => exact quiet.dial
  | received => exact fun _ => .inl
  | read link e rest _ _ held complete took =>
    rw [took.leaves.dial]
    exact fun _ => .inl
  | gaveUp error _ t quiet cleared =>
    subst cleared
    exact quiet.dial

/-- What an application was told before it can only be settled or handed out if it is news. -/
theorem unnoted_of_untold (untold : ∀ effect ∈ effects, effect.isNews = false) :
    effects.filterMap Effect.affair? = [] ∧ effects.findSome? Effect.handed? = none := by
  constructor
  · refine List.filterMap_eq_nil_iff.mpr fun effect asked => ?_
    have silent := untold effect asked
    unfold Effect.affair?
    split
    · cases silent
    · rfl
  · refine List.findSome?_eq_none_iff.mpr fun effect asked => ?_
    have silent := untold effect asked
    unfold Effect.handed?
    split
    · cases silent
    · rfl

/-- The reply that settles a promise answers the message that brought it. -/
theorem took_founded {e : Envelope} (took : Took e s after effects)
    (bound : ∀ binding ∈ s.ledger.bindings,
      ∃ seq payload, ⟨a, .promised seq payload binding.1 binding.2⟩ ∈ log)
    (distinct : Distinct log) (k : Incarnation) (hears : Hears log a k e) :
    ∀ affair ∈ effects.filterMap Effect.affair?, Founded log a affair := by
  cases took with
  | settled payload replyTo promise taken body new takes =>
    intro affair listed
    obtain rfl : affair = .settled promise payload := List.mem_singleton.mp listed
    obtain ⟨binding, found, released⟩ := Option.map_eq_some_iff.mp takes
    cases released
    have named : binding.1 = replyTo := by simpa using List.find?_some found
    obtain ⟨seq, message, noted⟩ := bound binding (List.mem_of_find?_eq_some found)
    obtain ⟨_, _, ⟨⟩, number, asked, promise, promised, answered⟩ := hears.parcel _ body
    -- The reply names a binding of this very run, which it gave out only once.
    rw [Actor.across_across] at promised
    rw [named] at noted
    obtain ⟨rfl, rfl, rfl⟩ := distinct a _ _ _ _ _ _ _ noted promised
    exact ⟨seq, message, replyTo, k, noted, answered⟩
  | _ => exact nofun

/-- A message that is handed out was promised under the binding that it names. -/
theorem took_works {e : Envelope} (took : Took e s after effects) (reading : s.stage = .reading)
    (k : Incarnation) (hears : Hears log a k e) (n : Nat)
    (stage : after.stage = .handling (some n)) :
    ∃ payload, effects.findSome? Effect.handed? = some payload ∧ n ≤ maxWord ∧
      ∃ promise, ⟨a.across k, .promised e.seq payload n promise⟩ ∈ log := by
  cases took with
  | message payload replyTo body =>
    obtain rfl : replyTo = some n := Stage.handling.inj stage
    obtain ⟨small, promised⟩ := hears.parcel _ body n rfl
    exact ⟨payload, rfl, small.trans hears.small, promised⟩
  | _ => cases reading.symm.trans stage

section Listening

/-- What stands in front of the buffer is true, and was written by the run of the other kernel
that is named. -/
def Listens (log : List Note) (a : Actor) (s : Session) (sender : Option Incarnation) : Prop :=
  ∀ link e rest, s.link = some link → Frame.next? link.buffer = .ok (some (e, rest)) →
    ∃ k, s.ledger.incarnation = some k ∧ sender = some k ∧ Hears log a k e

variable {sender : Option Incarnation}

/-- A run that stands has a true envelope in front, from the run at the other end of its
connection. -/
theorem Stands.listens (stands : Stands log passage a r)
    (spoken : ∀ c, (passage c).Spoken log a.party.other) : Listens log a r.session
      (r.session.link.bind fun link => (passage link.endpoint.connection).run a.party.other) := by
  intro link e rest held complete
  obtain ⟨_, k, known, theirs, hears⟩ := stands.attends.hears spoken link held e rest complete
  refine ⟨k, known, ?_, hears⟩
  rw [held]
  exact theirs

/-- A number that is higher than what was received before is that of the envelope in front. -/
theorem Listens.counts (listens : Listens log a s sender) (heard : Heard s event after effects)
    (higher : s.ledger.window.received < after.ledger.window.received) :
    after.ledger.window.received = s.frontSeq ∧
      ∃ k, s.ledger.incarnation = some k ∧ sender = some k := by
  cases heard with
  | nothing _ _ _ received =>
    rw [received] at higher
    exact absurd higher (Nat.lt_irrefl _)
  | renewed _ _ _ _ _ _ _ _ _ received =>
    rw [received] at higher
    exact absurd higher (Nat.not_lt_zero _)
  | read link e rest _ _ _ front took =>
    obtain ⟨_, live, held, complete⟩ := s.front?_reading e rest front
    obtain ⟨k, known, sent, _⟩ := listens live e rest held complete
    refine ⟨?_, k, known, sent⟩
    rw [s.frontSeq_eq live e rest held complete]
    rcases took.leaves.received with same | most
    · exact absurd higher (Nat.not_lt_of_le (Nat.le_of_eq same))
    · rw [most] at higher ⊢
      dsimp only at higher ⊢
      omega

/-- What is settled goes back to the log. -/
theorem Listens.founded (listens : Listens log a s sender) (heard : Heard s event after effects)
    (bound : ∀ binding ∈ s.ledger.bindings,
      ∃ seq payload, ⟨a, .promised seq payload binding.1 binding.2⟩ ∈ log)
    (distinct : Distinct log) :
    ∀ affair ∈ effects.filterMap Effect.affair?, Founded log a affair := by
  cases heard with
  | nothing _ _ _ _ _ untold =>
    rw [(unnoted_of_untold untold).1]
    exact nofun
  | renewed _ _ before endpoint known incarnation _ _ _ _ _ untold =>
    rw [List.filterMap_append, (unnoted_of_untold untold).1]
    exact nofun
  | read link e rest _ _ _ front took =>
    obtain ⟨_, live, held, complete⟩ := s.front?_reading e rest front
    obtain ⟨k, _, _, hears⟩ := listens live e rest held complete
    exact took_founded took bound distinct k hears

/-- The application is at work on what was handed out last. -/
theorem Listens.works (listens : Listens log a r.session sender)
    (heard : Heard r.session event after effects) (works : Works log a r) :
    Works log a (r.onward sender after effects) := by
  intro n stage
  cases heard with
  | nothing _ _ _ _ _ untold still =>
    rcases still with same | free
    · have kept : (r.onward sender after effects).errand = r.errand := by
        simp [Run.onward, (unnoted_of_untold untold).2]
      rw [kept]
      change ∃ errand k, _ ∧ after.ledger.incarnation = some k ∧ _
      rw [same]
      exact works n (same ▸ stage)
    · exact absurd stage (free _)
  | renewed _ _ before endpoint known incarnation _ _ _ _ _ _ greets =>
    cases greets.symm.trans stage
  | read link e rest _ _ _ front took =>
    obtain ⟨reading, live, held, complete⟩ := r.session.front?_reading e rest front
    obtain ⟨k, known, sent, hears⟩ := listens live e rest held complete
    obtain ⟨payload, handed, small, promised⟩ := took_works took reading k hears n stage
    refine ⟨⟨sender, e.seq, payload⟩, k, ?_, took.leaves.incarnation.trans known, sent, small,
      promised⟩
    simp [Run.onward, handed, r.session.frontSeq_eq live e rest held complete]

/-- What a run takes up is true once it is noted what the turn hears. -/
theorem Stands.grounds (stands : Stands log passage a r)
    (listens : Listens log a r.session sender) (heard : Heard r.session event after effects)
    (noted : ∀ affair ∈ r.hearings sender after event, ⟨a, affair⟩ ∈ log)
    (reached : ∀ greeted, event = .dialed (.ok greeted) →
      Vouches log (a.across greeted.hello.incarnation) greeted.hello) :
    Grounds log a r.session event after := by
  refine ⟨?_, ?_, ?_, ?_⟩
  · rintro greeted (waits | dialed)
    · exact (stands.attends.waiting greeted waits).2.2
    · exact reached greeted dialed
  · rintro n payload stage rfl
    obtain ⟨errand, k, held, known, said, small, promise, asked⟩ := stands.works n stage
    refine ⟨small, k, known, errand.seq, errand.payload, promise, asked, ?_⟩
    have answered : ⟨a, .answered errand payload⟩ ∈ log := by
      refine noted _ (List.mem_append_left _ ?_)
      simp [Run.answers, stage, held]
    rwa [show errand = ⟨some k, errand.seq, errand.payload⟩ by rw [← said]] at answered
  · intro link e rest held complete
    obtain ⟨k, _, _, hears⟩ := listens link e rest held complete
    exact ⟨k, hears⟩
  · intro _ higher
    obtain ⟨number, k, known, sent⟩ := listens.counts heard higher
    refine ⟨k, known, noted _ (List.mem_append_right _ ?_)⟩
    rw [if_pos higher, sent, ← number]
    exact List.mem_singleton_self _

end Listening

/-- A turn keeps what holds of a run once it is noted what the turn heard. What it writes is
true, and its outcomes are founded. -/
theorem Stands.turned (stands : Stands log passage a r)
    (spoken : ∀ c, (passage c).Spoken log a.party.other) (distinct : Distinct log)
    (own : host.incarnation = a.run) (turned : Turned host now r.session event after effects)
    (sender : Option Incarnation)
    (whose : sender = r.session.link.bind fun link =>
      (passage link.endpoint.connection).run a.party.other)
    (noted : ∀ affair ∈ r.hearings sender after event, ⟨a, affair⟩ ∈ log)
    (unread : ∀ bytes, event ≠ .received bytes)
    (reached : ∀ greeted, event = .dialed (.ok greeted) → Attends log passage a
      { r.session with commands := .attach greeted :: r.session.commands }) :
    Stands log passage a (r.onward sender after effects) ∧ Writes log a r.session effects ∧
      ∀ affair ∈ r.outcomes after effects, Founded log a affair := by
  have moved := turned.moved
  have heard := turned.heard
  have listens : Listens log a r.session sender := whose ▸ stands.listens spoken
  have grounds : Grounds log a r.session event after :=
    stands.grounds listens heard noted fun greeted dialed =>
      ((reached greeted dialed).waiting greeted List.mem_cons_self).2.2
  obtain ⟨trusts, writes⟩ := moved_trusts moved own stands.trusts grounds
  refine ⟨⟨trusts, moved_attends moved stands.attends spoken unread reached, ?_,
    listens.works heard stands.works, ?_⟩, writes, ?_⟩
  · exact fun binding listed => stands.bound binding (turned.bindings binding listed)
  · intro dial begun
    rcases moved_dials moved dial begun with held | fresh
    · exact stands.dials dial held
    · rw [fresh]
      exact stands.trusts.vouches host own
  · intro affair listed
    rcases List.mem_append.mp listed with settles | retires
    · exact listens.founded heard stands.bound distinct affair settles
    · obtain ⟨seq, covered, rfl⟩ := List.mem_map.mp retires
      exact stands.trusts.retires after trusts.acked seq covered

end Traffic

end Courier
