import Courier.Proofs.Arrival
import Courier.Proofs.Standing

/-!
# Replies and acknowledgements find their way

Two kernels are started any number of times, and connections between their runs come and go.
A promise is only ever settled with the reply to the message that brought it, by the run that
accepted this message; and an acknowledgement only ever retires what was counted from this
very run. A reply or an acknowledgement that was meant for an earlier run is of no effect,
although later runs use the same bindings and numbers again.

The reason is that whatever is said is vouched for by the log at the time when it is said. A
greeting names whom its acknowledgement is for, and everything behind it is for the run that
greeted back. Each kind of step keeps this.
-/

namespace Courier

open Json

namespace Passage

variable {w after : Passage} {p q : Party} {log : List Note}

/-- Nobody greeted on an unused connection, and nobody takes anything from a connection
before the greetings are done. -/
structure Proper (w : Passage) : Prop where
  unused : w.dialer = none → ∀ p, w.joined p = false ∧ w.run p = none
  untouched : ∀ p, w.joined p = false → w.taken p = 0

/-- Writing nothing changes nothing. -/
theorem append_nil (w : Passage) (p : Party) : w.append p [] = w := by
  unfold append
  rw [List.append_nil, Function.update_eq_self]

/-- A connection lasts when something more is written on it. -/
theorem Lasts.append (joined : w.joined p = true) (q : Party) (dispatches : List Dispatch) :
    w.Lasts (w.append q dispatches) p := by
  refine ⟨joined, fun _ _ => id, rfl, ?_⟩
  rw [append_written]
  split
  · next same => exact same ▸ List.prefix_append _ _
  · exact List.prefix_refl _

/-- Nothing was said on a connection on which nobody greeted. -/
theorem Spoken.silent (run : ∀ q, w.run q = none) (written : w.written p = [] := by rfl) :
    w.Spoken log p := by
  refine ⟨fun _ => written, fun own greeted => ?_⟩
  cases (run p).symm.trans greeted

/-- What a party says stays true while the others greet. -/
theorem Spoken.kept (spoken : w.Spoken log p) (written : after.written p = w.written p)
    (run : after.run p = w.run p)
    (others : ∀ k, w.run p.other = some k → after.run p.other = some k) : after.Spoken log p := by
  refine ⟨?_, ?_⟩
  · rw [written, run]
    exact spoken.mute
  · rw [written, run]
    intro own greeted
    obtain ⟨first, rest, hello, begins, formed, body, vouches, utters⟩ := spoken.begun own greeted
    refine ⟨first, rest, hello, begins, formed, body, vouches, fun d listed => ?_⟩
    obtain ⟨k, heard, truly⟩ := utters d listed
    exact ⟨k, others k heard, truly⟩

/-- A party may say more that is true. -/
theorem Spoken.append (spoken : w.Spoken log p) (q : Party) (dispatches : List Dispatch)
    (utters : p = q → ∀ d ∈ dispatches, ∃ own k, w.run p = some own ∧ w.run p.other = some k ∧
      Traffic.Utters log ⟨p, own⟩ k d) : (w.append q dispatches).Spoken log p := by
  by_cases same : p = q
  · subst same
    have written : (w.append p dispatches).written p = w.written p ++ dispatches := by
      rw [append_written, if_pos rfl]
    refine ⟨?_, ?_⟩
    · intro silent
      rw [written, spoken.mute silent, List.nil_append]
      refine List.eq_nil_iff_forall_not_mem.mpr fun d listed => ?_
      obtain ⟨own, _, greeted, _⟩ := utters rfl d listed
      cases silent.symm.trans greeted
    · intro run greeted
      obtain ⟨first, rest, hello, begins, formed, body, vouches, truly⟩ :=
        spoken.begun run greeted
      refine ⟨first, rest ++ dispatches, hello, ?_, formed, body, vouches, ?_⟩
      · rw [written, begins, List.cons_append]
      · intro d listed
        rcases List.mem_append.mp listed with before | new
        · exact truly d before
        · obtain ⟨own, k, held, theirs, said⟩ := utters rfl d new
          cases held.symm.trans greeted
          exact ⟨k, theirs, said⟩
  · refine spoken.kept ?_ rfl fun _ => id
    rw [append_written, if_neg same]

/-- A party that said nothing may greet. -/
theorem Spoken.greet (spoken : w.Spoken log p) (silent : w.run p = none) (run : Incarnation)
    (hello : Hello) (vouches : Traffic.Vouches log ⟨p, run⟩ hello) (seq ack : Nat) (d : Dispatch)
    (greeting : Dispatch.of? (.hello hello) seq ack = some d) :
    (w.greet p run d).Spoken log p := by
  obtain ⟨body, _⟩ := Dispatch.of?_eq _ _ _ d greeting
  have written : (w.greet p run d).written p = [d] := by
    change (w.append p [d]).written p = _
    rw [append_written, if_pos rfl, spoken.mute silent]
    rfl
  have greeted : (w.greet p run d).run p = some run := Function.update_self _ _ _
  refine ⟨fun mute => ?_, fun own named => ?_⟩
  · cases mute.symm.trans greeted
  · cases named.symm.trans greeted
    exact ⟨d, [], hello, written, Dispatch.of?_formed _ _ _ d greeting, body, vouches, nofun⟩

/-- Greeting leaves what the other end wrote, and the run that it greeted for. -/
theorem greet_other (w : Passage) (run : Incarnation) (d : Dispatch) (other : q ≠ p) :
    (w.greet p run d).written q = w.written q ∧ (w.greet p run d).run q = w.run q := by
  refine ⟨?_, Function.update_of_ne other _ _⟩
  change (w.append p [d]).written q = _
  rw [append_written, if_neg other]

/-- A party that greeted does not greet again for another run. -/
theorem greet_run (w : Passage) (silent : w.run p = none) (own : Incarnation) (d : Dispatch)
    (k : Incarnation) (greeted : w.run q = some k) : (w.greet p own d).run q = some k := by
  by_cases same : q = p
  · subst same
    cases silent.symm.trans greeted
  · rw [(w.greet_other own d same).2]
    exact greeted

/-- A party that said nothing may greet, and what the other one says stays true. -/
theorem Spoken.greets (spoken : ∀ q, w.Spoken log q) (silent : w.run p = none)
    (own : Incarnation) (hello : Hello) (vouches : Traffic.Vouches log ⟨p, own⟩ hello)
    (seq ack : Nat) (d : Dispatch) (greeting : Dispatch.of? (.hello hello) seq ack = some d) :
    ∀ q, (w.greet p own d).Spoken log q := by
  intro q
  by_cases same : q = p
  · subst same
    exact (spoken q).greet silent own hello vouches seq ack d greeting
  · obtain ⟨written, run⟩ := w.greet_other own d same
    exact (spoken q).kept written run fun k greeted => w.greet_run silent own d k greeted

/-- Greeting leaves readers where they are. -/
theorem Lasts.greet (joined : w.joined q = true) (silent : w.run p = none) (own : Incarnation)
    (d : Dispatch) : w.Lasts (w.greet p own d) q :=
  ⟨joined, fun _ k greeted => w.greet_run silent own d k greeted, rfl,
    (Lasts.append joined p [d]).written⟩

/-- Whatever one party takes, the other reads on. -/
theorem Lasts.take (joined : w.joined q = true) (other : q ≠ p) (count : Nat) :
    w.Lasts (w.take p count) q := by
  refine ⟨joined, fun _ _ => id, ?_, List.prefix_refl _⟩
  rw [take_taken, if_neg other]

/-- When one end joins, the connection lasts for the other end. -/
theorem Lasts.join (joined : w.joined q = true) (other : q ≠ p) (count : Nat) :
    w.Lasts (w.join p count) q := by
  refine ⟨?_, fun _ _ => id, (Lasts.take joined other count).taken, List.prefix_refl _⟩
  rw [join_joined, if_neg other]
  exact joined

/-- A connection stays proper when something is taken from it. -/
theorem Proper.take (proper : w.Proper) (joined : w.joined p = true) (count : Nat) :
    (w.take p count).Proper := by
  refine ⟨proper.unused, fun q idle => ?_⟩
  have other : q ≠ p := by
    rintro rfl
    cases joined.symm.trans idle
  rw [take_taken, if_neg other]
  exact proper.untouched q idle

/-- A connection in use stays proper when an end joins. -/
theorem Proper.join (proper : w.Proper) (used : w.dialer ≠ none) (count : Nat) :
    (w.join p count).Proper := by
  refine ⟨fun unused => absurd unused used, fun q idle => ?_⟩
  rw [join_joined] at idle
  split at idle
  · cases idle
  · next other =>
    change (w.take p count).taken q = 0
    rw [take_taken, if_neg other]
    exact proper.untouched q idle

end Passage

namespace Traffic

/-- What always holds between the runs of two kernels. -/
structure Sound (x : Traffic) : Prop where
  runs : ∀ a r, x.run a = some r → Stands x.log x.passage a r
  spoken : ∀ c p, (x.passage c).Spoken x.log p
  proper : ∀ c, (x.passage c).Proper
  absent : ∀ a, x.run a = none → ∀ affair, ⟨a, affair⟩ ∉ x.log
  distinct : Distinct x.log
  justified : Justified x.log

variable {x y : Traffic} {a : Actor} {r : Run}

/-- A change of one connection changes no other one. -/
theorem change_passage (x : Traffic) (c k : Nat) (f : Passage → Passage) :
    (x.change c f).passage k = if k = c then f (x.passage c) else x.passage k :=
  Function.update_apply _ _ _ _

/-- A turn that writes nothing leaves the connections as they are. -/
theorem followed_unwritten (x : Traffic) (a : Actor) (r : Run) (event : Event) (after : Session)
    (effects : List Effect) (mute : ∀ c, effects.flatMap (Effect.writes c) = []) :
    x.followed a r event after effects = { x.amend a (r.onward (x.sender a r) after effects) with
      log := x.log ++
        a.notes (r.hearings (x.sender a r) after event ++ r.outcomes after effects) } := by
  have same : (fun c => (x.passage c).append a.party (effects.flatMap (Effect.writes c))) =
      x.passage := funext fun c => by rw [mute, Passage.append_nil]
  unfold followed
  rw [same]
  rfl

/-- A connection goes on for its readers. -/
theorem Sound.changed (sound : Sound x) (c : Nat) (f : Passage → Passage)
    (lasts : ∀ p, (x.passage c).joined p = true → (x.passage c).Lasts (f (x.passage c)) p)
    (spoken : ∀ p, (f (x.passage c)).Spoken x.log p) (proper : (f (x.passage c)).Proper) :
    Sound (x.change c f) := by
  refine ⟨?_, ?_, ?_, sound.absent, sound.distinct, sound.justified⟩
  · intro b t runs
    refine (sound.runs b t runs).lasts (List.Subset.refl _) (fun _ _ _ _ => id) fun k joined _ => ?_
    rw [change_passage]
    split
    · next same =>
      subst same
      exact lasts b.party joined
    · exact .refl joined
  · intro k p
    rw [change_passage]
    split
    · exact spoken p
    · exact sound.spoken k p
  · intro k
    rw [change_passage]
    split
    · exact proper
    · exact sound.proper k

/-- One run goes on, with what it notes, and every connection goes on for the readers that
belong to others. -/
theorem Sound.onward (sound : Sound x) (news : List Affair)
    (run : y.run = Function.update x.run a (some r)) (log : y.log = x.log ++ a.notes news)
    (lasts : ∀ c p, (x.passage c).joined p = true →
      (p = a.party → (x.passage c).run p ≠ some a.run) → (x.passage c).Lasts (y.passage c) p)
    (stands : Stands y.log y.passage a r) (spoken : ∀ c p, (y.passage c).Spoken y.log p)
    (proper : ∀ c, (y.passage c).Proper) (distinct : Distinct y.log)
    (justified : Justified y.log) : Sound y := by
  have grown : x.log ⊆ y.log := log ▸ List.subset_append_left _ _
  have old (b : Actor) (other : b ≠ a) (affair : Affair) (noted : ⟨b, affair⟩ ∈ y.log) :
      ⟨b, affair⟩ ∈ x.log := by
    rw [log] at noted
    refine (List.mem_append.mp noted).resolve_right fun new => ?_
    exact other ((a.mem_notes b affair news).mp new).1
  refine ⟨?_, spoken, proper, ?_, distinct, justified⟩
  · intro b t runs
    rw [run, Function.update_apply] at runs
    split at runs
    · next same =>
      subst same
      cases runs
      exact stands
    · next other =>
      refine (sound.runs b t runs).lasts grown (fun _ _ _ _ => old b other _) ?_
      intro c joined ours
      -- Two runs of one kernel on one connection would be the same run.
      refine lasts c b.party joined fun party mine => other ?_
      obtain ⟨p, k⟩ := b
      obtain ⟨q, j⟩ := a
      obtain rfl : p = q := party
      cases ours.symm.trans mine
      rfl
  · intro b none affair noted
    rw [run, Function.update_apply] at none
    split at none
    · cases none
    · next other => exact sound.absent b none affair (old b other affair noted)

/-- A run may change by itself. -/
theorem Sound.amended (sound : Sound x) (stands : Stands x.log x.passage a r) :
    Sound (x.amend a r) :=
  sound.onward [] rfl (List.append_nil _).symm (fun _ _ joined _ => .refl joined) stands
    sound.spoken sound.proper sound.distinct sound.justified

/-- A kernel may be started. -/
theorem Sound.started (sound : Sound x) (fresh : x.run a = none) (peer : PeerId)
    (options : Options) : Sound (x.amend a ⟨options, .fresh peer options, none⟩) := by
  refine sound.amended ⟨?_, .none rfl rfl, nofun, nofun, nofun⟩
  refine ⟨.inl rfl, Nat.zero_le _, .inl rfl, nofun, ?_, Nat.le_refl _⟩
  exact fun _ _ _ _ noted => absurd noted (sound.absent a fresh _)

/-- A new binding is promised once. -/
theorem Distinct.promised {log : List Note} (distinct : Distinct log) (l : Ledger)
    (trusts : Trusts log a l) (seq : Nat) (payload : List UInt8) (promise : PromiseId) :
    Distinct (log ++ a.notes [.promised seq payload l.nextBinding promise]) := by
  have parts (b : Actor) (number n : Nat) (message : List UInt8) (other : PromiseId)
      (noted : ⟨b, .promised number message n other⟩ ∈
        log ++ a.notes [.promised seq payload l.nextBinding promise]) :
      ⟨b, .promised number message n other⟩ ∈ log ∨ b = a ∧ n = l.nextBinding ∧
        number = seq ∧ message = payload ∧ other = promise := by
    refine (List.mem_append.mp noted).imp_right fun new => ?_
    obtain ⟨same, only⟩ := (a.mem_notes b _ _).mp new
    cases List.mem_singleton.mp only
    exact ⟨same, rfl, rfl, rfl, rfl⟩
  intro b n _ _ _ _ _ _ first second
  rcases parts _ _ _ _ _ first with old | ⟨rfl, rfl, rfl, rfl, rfl⟩
  -- The new number is above all that were given out before, so the two cannot be mixed.
  · rcases parts _ _ _ _ _ second with older | ⟨rfl, rfl, rfl, rfl, rfl⟩
    · exact distinct b n _ _ _ _ _ _ old older
    · exact absurd (trusts.fresh _ _ _ _ old) (Nat.lt_irrefl _)
  · rcases parts _ _ _ _ _ second with older | ⟨_, _, rfl, rfl, rfl⟩
    · exact absurd (trusts.fresh _ _ _ _ older) (Nat.lt_irrefl _)
    · exact ⟨rfl, rfl, rfl⟩

/-- A letter may be queued. -/
theorem Sound.posted (sound : Sound x) (runs : x.run a = some r) (letter : Letter) (now : Duration)
    (queued : Ledger) (accepted : r.session.ledger.enqueueLetter letter now = .ok queued)
    (posted : r.session.post letter now =
      .ok { r.session with ledger := queued, woken := true }) :
    Sound { x.amend a { r with session := { r.session with ledger := queued, woken := true } } with
      log := x.log ++ a.notes (r.session.callAffairs (.post letter now)) } := by
  have stands := sound.runs a r runs
  have affairs : r.session.callAffairs (.post letter now) = letter.promise.toList.map
      (.promised queued.window.sent letter.payload r.session.ledger.nextBinding) := by
    simp only [Session.callAffairs, posted]
    cases letter.promise <;> rfl
  rw [affairs]
  obtain ⟨made, evicted, tally, room, _, rfl⟩ :=
    r.session.ledger.enqueueLetter_eq queued letter now accepted
  cases promised : letter.promise with
  | none =>
    have nothing : x.log ++ a.notes [] = x.log := List.append_nil _
    change Sound { x.amend a _ with log := x.log ++ a.notes [] }
    rw [nothing]
    refine sound.amended ⟨?_, ?_, stands.bound, stands.works, stands.dials⟩
    · exact stands.trusts.push (List.Subset.refl _) made evicted room (.message letter.payload none)
        now rfl rfl rfl rfl rfl (Nat.le_succ _) stands.trusts.fresh nofun
    · exact stands.attends.steady (.inr rfl) (List.suffix_refl _) rfl
  | some promise =>
    refine sound.onward _ rfl rfl (fun _ _ joined _ => .refl joined)
      (stands.promised letter.payload promise made evicted room now tally)
      (fun c p => (sound.spoken c p).grow (List.subset_append_left _ _)) sound.proper
      (sound.distinct.promised _ stands.trusts _ _ promise)
      (sound.justified.append _ fun affair listed => ?_)
    rw [List.mem_singleton.mp listed]
    trivial

/-- No call attaches a connection. -/
theorem commands_of_isCall (call : Occurrence) (fit : call.IsCall) (greeted : Greeted) :
    .attach greeted ∉ call.commands := by
  cases call with
  | attach | turn => cases fit
  | _ => simp [Occurrence.commands]

/-- A call may be made. -/
theorem Sound.called (sound : Sound x) (runs : x.run a = some r) (call : Occurrence)
    (fit : call.IsCall) : Sound (x.called a r call) := by
  have stands := sound.runs a r runs
  have undergone := r.session.undergone (x.host a r) call
  unfold Traffic.called
  generalize r.session.undergo (x.host a r) call = after at undergone ⊢
  cases undergone with
  | spared _ _ spared refused =>
    have nothing : x.log ++ a.notes (r.session.callAffairs call) = x.log := by
      have silent : r.session.callAffairs call = [] := by
        cases call with
        | post letter now =>
          obtain ⟨error, refusal⟩ := refused letter now rfl
          simp only [Session.callAffairs, refusal]
        | _ => rfl
      rw [silent]
      exact List.append_nil _
    rw [nothing]
    exact sound.amended (stands.spared spared (commands_of_isCall call fit))
  | posted letter now queued accepted posted =>
    exact sound.posted runs letter now queued accepted posted
  | turned => cases fit

/-- Affairs may be noted that go back to the log and promise nothing. -/
theorem Sound.noted (sound : Sound x) (runs : x.run a = some r) (news : List Affair)
    (silent : ∀ seq payload n promise, .promised seq payload n promise ∉ news)
    (founded : ∀ affair ∈ news, Founded x.log a affair) :
    Sound { x with log := x.log ++ a.notes news } := by
  have grown : x.log ⊆ x.log ++ a.notes news := List.subset_append_left _ _
  refine sound.onward (r := r) news ?_ rfl (fun _ _ joined _ => .refl joined) ?_
    (fun c p => (sound.spoken c p).grow grown) sound.proper (sound.distinct.append news silent)
    (sound.justified.append news founded)
  · rw [← runs, Function.update_eq_self]
  · refine (sound.runs a r runs).lasts grown ?_ fun _ joined _ => .refl joined
    intro seq payload n promise noted
    refine (List.mem_append.mp noted).resolve_right fun new => ?_
    exact silent _ _ _ _ ((a.mem_notes a _ news).mp new).2

/-- What a turn hears needs no reason, and promises nothing. -/
theorem hearings_founded (log : List Note) (a : Actor) (r : Run) (sender : Option Incarnation)
    (after : Session) (event : Event) :
    (∀ seq payload n promise, .promised seq payload n promise ∉ r.hearings sender after event) ∧
      ∀ affair ∈ r.hearings sender after event, Founded log a affair := by
  have kinds (affair : Affair) (listed : affair ∈ r.hearings sender after event) :
      (∃ errand reply, affair = .answered errand reply) ∨ ∃ seq, affair = .counted sender seq := by
    rcases List.mem_append.mp listed with answers | counts
    · unfold Run.answers at answers
      split at answers
      · exact .inl ⟨_, _, List.mem_singleton.mp answers⟩
      · cases answers
    · split at counts
      · exact .inr ⟨_, List.mem_singleton.mp counts⟩
      · cases counts
  refine ⟨fun seq payload n promise listed => ?_, fun affair listed => ?_⟩
  · rcases kinds _ listed with ⟨_, _, same⟩ | ⟨_, same⟩ <;> cases same
  · rcases kinds affair listed with ⟨_, _, rfl⟩ | ⟨_, rfl⟩ <;> trivial

/-- No turn makes a promise. -/
theorem outcomes_unpromised (r : Run) (after : Session) (effects : List Effect) (seq : Nat)
    (payload : List UInt8) (n : Nat) (promise : PromiseId) :
    .promised seq payload n promise ∉ r.outcomes after effects := by
  intro listed
  rcases List.mem_append.mp listed with settles | retires
  · obtain ⟨effect, _, same⟩ := List.mem_filterMap.mp settles
    unfold Effect.affair? at same
    split at same <;> cases same
  · obtain ⟨_, _, same⟩ := List.mem_map.mp retires
    cases same

/-- Once it is noted what a turn hears, the run stands afterwards. What the turn writes is for
connections on which the run greeted, and true for the run that greeted back. -/
theorem Sound.hears (sound : Sound x) (runs : x.run a = some r) (now : Nat) (event : Event)
    (after : Session) (effects : List Effect)
    (turned : Turned (x.host a r) now r.session event after effects)
    (unread : ∀ bytes, event ≠ .received bytes)
    (reached : ∀ greeted, event = .dialed (.ok greeted) → Attends x.log x.passage a
      { r.session with commands := .attach greeted :: r.session.commands })
    (log : List Note) (heard : log = x.log ++ a.notes (r.hearings (x.sender a r) after event)) :
    Sound { x with log } ∧ Stands log x.passage a (r.onward (x.sender a r) after effects) ∧
      (∀ c, ∀ d ∈ effects.flatMap (Effect.writes c), (x.passage c).run a.party = some a.run ∧
        ∃ k, (x.passage c).run a.party.other = some k ∧ Utters log a k d) ∧
      ∀ affair ∈ r.outcomes after effects, Founded log a affair := by
  subst heard
  obtain ⟨silent, grounded⟩ := hearings_founded x.log a r (x.sender a r) after event
  have noted := sound.noted runs _ silent grounded
  have grown : x.log ⊆ x.log ++ a.notes (r.hearings (x.sender a r) after event) :=
    List.subset_append_left _ _
  obtain ⟨stands, writes, founded⟩ := (noted.runs a r runs).turned (fun c => noted.spoken c _)
    noted.distinct rfl turned (x.sender a r) rfl
    (fun affair listed => List.mem_append_right _ (List.mem_map_of_mem listed)) unread
    (fun greeted dialed => (reached greeted dialed).lasts grown fun _ joined _ => .refl joined)
  refine ⟨noted, stands, fun c d listed => ?_, founded⟩
  obtain ⟨link, held, rfl, truly⟩ := writes c d listed
  obtain ⟨_, k, known, theirs⟩ := (sound.runs a r runs).attends.link link held
  obtain ⟨_, ours⟩ := (sound.runs a r runs).attends.ours _ (Holds.link_ends _ link held)
  exact ⟨ours, k, theirs, truly k known⟩

/-- A turn may be taken. A connection that an attempt brings must be one that the run may
hold. -/
theorem Sound.turned (sound : Sound x) (runs : x.run a = some r) (now : Nat)
    (random : Random.Stream) (event : Event) (unread : ∀ bytes, event ≠ .received bytes)
    (reached : ∀ greeted, event = .dialed (.ok greeted) → Attends x.log x.passage a
      { r.session with commands := .attach greeted :: r.session.commands }) :
    Sound (x.turned a r now random event) := by
  obtain ⟨effects, asked, turned⟩ :=
    Turn.handle_goes (x.host a r) now ⟨r.session, random, []⟩ event
  have asked : (Turn.handle (x.host a r) now ⟨r.session, random, []⟩ event).effects = effects :=
    asked
  unfold Traffic.turned Traffic.followed
  dsimp only
  rw [asked]
  generalize (Turn.handle (x.host a r) now ⟨r.session, random, []⟩ event).session = after
    at turned ⊢
  have split : x.log ++ a.notes (r.hearings (x.sender a r) after event ++
      r.outcomes after effects) = (x.log ++ a.notes (r.hearings (x.sender a r) after event)) ++
        a.notes (r.outcomes after effects) := by
    simp [Actor.notes]
  rw [split]
  generalize noted : x.log ++ a.notes (r.hearings (x.sender a r) after event) = log
  -- First what was heard is noted, and then what follows from it, which goes back to that.
  obtain ⟨heard, stands, writes, founded⟩ :=
    sound.hears runs now event after effects turned unread reached log noted.symm
  have grown : log ⊆ log ++ a.notes (r.outcomes after effects) := List.subset_append_left _ _
  refine heard.onward _ rfl rfl ?_ ?_ ?_ (fun c => ⟨(sound.proper c).unused, ?_⟩)
    (heard.distinct.append _ (outcomes_unpromised r after effects))
    (heard.justified.append _ founded)
  · exact fun c p joined _ => .append joined _ _
  · refine stands.lasts grown ?_ fun c joined _ => .append joined _ _
    intro seq payload n promise noted
    refine (List.mem_append.mp noted).resolve_right fun new => ?_
    exact outcomes_unpromised r after effects _ _ _ _ ((a.mem_notes a _ _).mp new).2
  · intro c p
    refine ((heard.spoken c p).append a.party _ ?_).grow grown
    rintro rfl d listed
    obtain ⟨ours, k, theirs, truly⟩ := writes c d listed
    exact ⟨a.run, k, ours, theirs, truly⟩
  · exact (sound.proper c).untouched

/-- A connection may be opened with a greeting. -/
theorem Sound.dialed (sound : Sound x) (runs : x.run a = some r) (dial : Dial) (c : Nat)
    (hello : Dispatch) (dialing : r.session.dial = some dial) (unused : (x.passage c).dialer = none)
    (greeting : Dispatch.of? (.hello dial.hello) 0 dial.hello.ack = some hello) :
    Sound (x.change c fun _ =>
      ({ dialer := some a.party } : Passage).greet a.party a.run hello) := by
  have vouches := (sound.runs a r runs).dials dial dialing
  refine sound.changed c _ ?_ ?_ ⟨nofun, fun _ _ => rfl⟩
  · intro p joined
    cases ((sound.proper c).unused unused p).1.symm.trans joined
  · exact Passage.Spoken.greets (fun _ => .silent fun _ => rfl) rfl a.run dial.hello vouches 0 _
      hello greeting

/-- A greeting may be answered. -/
theorem Sound.answered (sound : Sound x) (runs : x.run a = some r) (c : Nat) (hello : Dispatch)
    (used : (x.passage c).dialer ≠ none) (unanswered : (x.passage c).run a.party = none)
    (greeting : Dispatch.of? (.hello ((x.host a r).hello r.session.ledger)) 0
      r.session.ledger.window.received = some hello) :
    Sound (x.change c fun w => w.greet a.party a.run hello) := by
  have vouches := (sound.runs a r runs).trusts.vouches (x.host a r) rfl
  refine sound.changed c _ ?_ ?_ ⟨fun unused => absurd unused used, (sound.proper c).untouched⟩
  · exact fun p joined => .greet joined unanswered a.run hello
  · exact Passage.Spoken.greets (sound.spoken c) unanswered a.run _ vouches 0 _ hello greeting

/-- A connection on which the greetings are done may be held. -/
theorem Sound.welcomed (sound : Sound x) (runs : x.run a = some r) (c : Nat)
    (arrived : ByteArray) (theirs : Hello) (surplus : ByteArray)
    (used : (x.passage c).dialer ≠ none) (ours : (x.passage c).run a.party = some a.run)
    (untaken : (x.passage c).joined a.party = false)
    (offered : (x.passage c).Offers a.party arrived)
    (greeted : Handshake.take? arrived = .ok (some (theirs, surplus))) :
    Sound (x.change c fun w => w.join a.party arrived.size) ∧ ∀ side (t : Session),
      t.ledger = r.session.ledger → t.link = r.session.link →
      t.commands.Perm (.attach ⟨⟨c, side⟩, theirs, surplus⟩ :: r.session.commands) →
      Attends x.log (x.change c fun w => w.join a.party arrived.size).passage a t := by
  obtain ⟨past, run, vouches⟩ := (sound.spoken c a.party.other).greeted
    ((sound.proper c).untouched _ untaken) arrived offered theirs surplus greeted
  have changed : Sound (x.change c fun w => w.join a.party arrived.size) := by
    refine sound.changed c _ ?_ ?_ ((sound.proper c).join used _)
    · intro p joined
      refine .join joined ?_ _
      rintro rfl
      cases untaken.symm.trans joined
    · exact fun p => (sound.spoken c p).kept rfl rfl fun _ => id
  have passage : (x.change c fun w => w.join a.party arrived.size).passage c =
      (x.passage c).join a.party arrived.size := by
    rw [change_passage, if_pos rfl]
  refine ⟨changed, fun side t ledger link commands => ?_⟩
  refine (changed.runs a r runs).attends.waits ⟨⟨c, side⟩, theirs, surplus⟩ ?_ ?_ ?_ ?_ ?_ vouches
    ledger link commands
  · intro held
    cases untaken.symm.trans ((sound.runs a r runs).attends.ours c held).1
  · rw [passage, Passage.join_joined, if_pos rfl]
  · rw [passage]
    exact ours
  · rw [passage]
    exact past
  · rw [passage]
    exact run

/-- A connection may be left for the session to attach. -/
theorem Sound.attached (sound : Sound x) (runs : x.run a = some r) (command : Command)
    (attends : Attends x.log x.passage a (r.session.push command)) :
    Sound (x.amend a { r with session := r.session.push command }) := by
  obtain ⟨commands, same, _⟩ := r.session.push_eq command
  have stands := sound.runs a r runs
  rw [same] at attends ⊢
  exact sound.amended ⟨stands.trusts, attends, stands.bound, stands.works, stands.dials⟩

/-- Bytes that arrive are taken from the live connection. -/
theorem Sound.taken (sound : Sound x) (runs : x.run a = some r) (link : Link) (bytes : ByteArray)
    (held : r.session.link = some link)
    (offered : (x.passage link.endpoint.connection).Offers a.party bytes) :
    Sound ((x.change link.endpoint.connection fun w => w.take a.party bytes.size).amend a
      { r with session := { r.session with
        link := some { link with buffer := link.buffer ++ bytes }
        ledger := r.session.ledger.count fun t => t.read bytes.size
        stage := .reading } }) := by
  have stands := sound.runs a r runs
  obtain ⟨joined, ours⟩ := stands.attends.ours _ (Holds.link_ends _ link held)
  obtain ⟨past, _⟩ := stands.attends.link link held
  have moves (t : Run) (c : Nat) : ((x.change link.endpoint.connection fun w =>
      w.take a.party bytes.size).amend a t).passage c = if c = link.endpoint.connection then
        (x.passage link.endpoint.connection).take a.party bytes.size else x.passage c :=
    x.change_passage _ c fun w => w.take a.party bytes.size
  refine sound.onward [] rfl (List.append_nil _).symm ?_ ?_ ?_ ?_ sound.distinct sound.justified
  · intro c p reads others
    rw [moves]
    split
    · next same =>
      subst same
      exact .take reads (fun party => others party (party ▸ ours)) _
    · exact .refl reads
  · refine ⟨stands.trusts.same, ?_, stands.bound, nofun, stands.dials⟩
    refine stands.attends.reads link held (link.buffer ++ bytes) rfl (List.suffix_refl _) rfl ?_ ?_
      fun c other => ?_
    · rw [moves, if_pos rfl]
      exact past.take bytes offered
    · rw [moves, if_pos rfl]
      exact ⟨rfl, rfl⟩
    · rw [moves, if_neg other]
  · intro c p
    rw [moves]
    split
    · exact (sound.spoken _ p).kept rfl rfl fun _ => id
    · exact sound.spoken c p
  · intro c
    rw [moves]
    split
    · exact (sound.proper _).take joined _
    · exact sound.proper c

/-- Bytes that arrive may be taken up. -/
theorem Sound.received (sound : Sound x) (runs : x.run a = some r) (link : Link)
    (bytes : ByteArray) (now : Nat) (random : Random.Stream)
    (held : r.session.link = some link) (idle : r.session.stage = .idle)
    (offered : (x.passage link.endpoint.connection).Offers a.party bytes) :
    Sound ((x.change link.endpoint.connection fun w => w.take a.party bytes.size).turned a r now
      random (.received bytes)) := by
  have taken := sound.taken runs link bytes held offered
  have trusts := (sound.runs a r runs).trusts
  generalize reading : ({ r.session with
    link := some { link with buffer := link.buffer ++ bytes }
    ledger := r.session.ledger.count fun t => t.read bytes.size
    stage := .reading } : Session) = t at taken
  have handled (host : Host) : Turn.handle host now ⟨r.session, random, []⟩ (.received bytes) =
      ⟨t, random, []⟩ := reading ▸ r.session.handle_received host now random link bytes idle held
  unfold Traffic.turned
  rw [handled, followed_unwritten _ _ _ _ _ _ fun _ => rfl]
  generalize (x.change link.endpoint.connection fun w => w.take a.party bytes.size).sender a r =
    sender
  obtain ⟨silent, grounded⟩ := hearings_founded x.log a r sender t (.received bytes)
  have noted := taken.noted (Function.update_self _ _ _)
    (r.hearings sender t (.received bytes) ++ r.outcomes t []) ?_ ?_
  · exact noted
  · intro seq payload n promise listed
    rcases List.mem_append.mp listed with heard | follows
    · exact silent _ _ _ _ heard
    · exact outcomes_unpromised r t [] _ _ _ _ follows
  · intro affair listed
    rcases List.mem_append.mp listed with heard | follows
    · exact grounded affair heard
    · obtain ⟨seq, covered, rfl⟩ := List.mem_map.mp follows
      refine trusts.retires t ?_ seq covered
      rw [← reading]
      exact trusts.acked

/-- It holds at the beginning. -/
theorem Sound.begin (peer : Party → PeerId) : Sound { peer } where
  runs := fun _ _ runs => by cases runs
  spoken := fun _ _ => .silent fun _ => rfl
  proper := fun _ => ⟨fun _ _ => ⟨rfl, rfl⟩, fun _ _ => rfl⟩
  absent := fun _ _ _ => List.not_mem_nil
  distinct := fun _ _ _ _ _ _ _ _ noted => by cases noted
  justified := fun _ _ _ begins => by
    obtain ⟨_, noted⟩ := List.append_eq_nil_iff.mp (List.prefix_nil.mp begins)
    cases noted

/-- Every step keeps what always holds. There is one case for each kind of step. -/
theorem Sound.step (sound : Sound x) (step : Step x y) : Sound y := by
  cases step with
  | start a options fresh => exact sound.started fresh _ options
  | call a r runs call fit => exact sound.called runs call fit
  | turn a r runs now random event own =>
    refine sound.turned runs now random event ?_ ?_
    · rintro bytes rfl
      cases own
    · rintro greeted rfl
      cases own
  | dial a r runs dial c hello dialing unused greeting =>
    exact sound.dialed runs dial c hello dialing unused greeting
  | answer a r runs c arrived theirs surplus hello dialed unanswered _ _ _ _ greeting =>
    exact sound.answered runs c hello (dialed ▸ Option.some_ne_none _) unanswered greeting
  | attach a r runs c arrived theirs surplus dialed answered untaken offered greeted =>
    obtain ⟨welcomed, holds⟩ := sound.welcomed runs c arrived theirs surplus
      (dialed ▸ Option.some_ne_none _) answered untaken offered greeted
    refine welcomed.attached runs _ ?_
    obtain ⟨commands, same, waiting⟩ :=
      r.session.push_eq (.attach ⟨⟨c, .acceptor⟩, theirs, surplus⟩)
    rw [same]
    rcases waiting with rfl | rfl
    · exact (welcomed.runs a r runs).attends
    · exact holds .acceptor _ rfl rfl (List.perm_append_singleton _ _)
  | reach a r runs c arrived theirs surplus now random dialed ours untaken offered greeted _ _ _ =>
    obtain ⟨welcomed, holds⟩ := sound.welcomed runs c arrived theirs surplus
      (dialed ▸ Option.some_ne_none _) ours untaken offered greeted
    refine welcomed.turned runs now random _ nofun ?_
    rintro reached same
    cases same
    exact holds .dialer _ rfl rfl (List.Perm.refl _)
  | receive a r runs link bytes now random held idle offered =>
    exact sound.received runs link bytes now random held idle offered

/-- Whatever is reachable is sound: every step keeps the runs standing, the connections truly spoken
on, and the affairs justified. -/
theorem Reachable.sound (reachable : Reachable x) : Sound x := by
  obtain ⟨peer, steps⟩ := reachable
  induction steps with
  | refl => exact .begin peer
  | tail _ step inductionHypothesis => exact inductionHypothesis.step step

end Traffic

end Courier
