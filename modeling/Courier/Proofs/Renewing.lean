import Courier.Proofs.Attempts
import Mathlib.Data.List.Induction

/-!
# A call to reconnect asks for fresh attempts

A call to reconnect starts the count of attempts afresh at once, but the attempt that is under
way then is dropped only when the session takes up the command that the call leaves. An attempt
that fails in between is counted like one that the call began. So the peer may be given up with
one attempt less than the options allow, and without any if they allow one.

Everything that is counted after the call is told apart here by when its attempt began. The
count has at most one failure of an older attempt, none if no attempt was under way at the call,
and apart from that one a peer is given up with failures of new attempts alone.
-/

namespace Courier

/-- Whether an effect begins an attempt to connect. -/
def Effect.isDial : Effect → Bool
  | .dial _ => true
  | _ => false

/-- Adopting a connection begins no attempt. -/
theorem Adopted.undialed {host : Host} {now : Nat} {greeted : Greeted} {s after : Session}
    {effects : List Effect} (adopted : Adopted host now greeted s after effects)
    (absent : s.dial = none) : after.dial = none := by
  cases adopted with
  | refused => exact absent
  | joined => rfl

/-- Without an effect that says so, no attempt to connect comes about in a turn. -/
theorem Turned.undialed {host : Host} {now : Nat} {event : Event} {s after : Session}
    {effects : List Effect} (turned : Turned host now s event after effects)
    (absent : s.dial = none) : effects.any Effect.isDial = true ∨ after.dial = none := by
  cases turned with
  | attach greeted rest after effects idle next adopted => exact .inr (adopted.undialed absent)
  | dialed greeted after effects idle dialing adopted => exact .inr (adopted.undialed rfl)
  | reconnect rest idle next =>
    left
    rw [List.any_append, Bool.or_eq_true]
    exact .inr rfl
  | resetDial | wakeDial | elapsedDial => exact .inl rfl
  | wakeFlush after effects idle woken phase flushed =>
    exact .inr (flushed.alike.dial.trans absent)
  | greeted after effects stage flushed => exact .inr (flushed.alike.dial.trans absent)
  | replied replyTo payload ledger after effects stage queued flushed =>
    exact .inr (flushed.alike.dial.trans absent)
  | lost link due => exact .inr ((s.bereft_dial due).trans absent)
  | readBroken link error due => exact .inr ((s.bereft_dial due).trans absent)
  | read link e rest after effects stage held complete took =>
    exact .inr (took.alike.dial.trans absent)
  | close | shutdown | dialStale | dialRetry | dialGiveUp => exact .inr rfl
  | _ => exact .inr absent

namespace Session

/-- Whether an occurrence begins an attempt to connect. -/
def begins (host : Host) (s : Session) (occurrence : Occurrence) : Bool :=
  (s.asked host occurrence).any Effect.isDial

/-- Whether an occurrence ends the attempt to connect without a connection, be it counted or
not. -/
def dialFails (s : Session) : Occurrence → Bool
  | .turn _ _ (.dialed (.error _)) => s.stage = .idle ∧ s.dial.isSome
  | _ => false

/-- What has become of the attempts to connect since some time. -/
structure Renewal where
  /-- Whether an attempt began since then. -/
  begun : Bool := false
  /-- The attempts that began since then and failed. -/
  failed : Nat := 0
  /-- The failures among them that are in the count of attempts. -/
  counted : Nat := 0
  /-- Whether the count has the failure of an attempt that was under way before. -/
  stale : Bool := false

/-- What has become of the attempts after one more occurrence. An attempt that ends is one that
began since then as soon as any did, because no session has two of them. -/
def Renewal.onward (host : Host) (s : Session) (r : Renewal) (occurrence : Occurrence) :
    Renewal where
  begun := r.begun || s.begins host occurrence
  failed := if r.begun && s.dialFails occurrence then r.failed + 1 else r.failed
  counted :=
    if s.startsAfresh host occurrence then 0
    else if r.begun && s.misses host occurrence then r.counted + 1
    else r.counted
  stale := !s.startsAfresh host occurrence &&
    (r.stale || (!r.begun && s.misses host occurrence))

/-- What has become of the attempts during a life. -/
def renewal (host : Host) (s : Session) (r : Renewal) : List Occurrence → Renewal
  | [] => r
  | occurrence :: rest => (s.undergo host occurrence).renewal host (r.onward host s occurrence) rest

/-- What has become of the attempts during a life and one more occurrence. -/
theorem renewal_append_one (host : Host) (s : Session) (r : Renewal) (past : List Occurrence)
    (occurrence : Occurrence) : s.renewal host r (past ++ [occurrence]) =
      (s.renewal host r past).onward host (s.live host past) occurrence := by
  induction past generalizing s r with
  | nil => rfl
  | cons first rest inductionHypothesis => exact inductionHypothesis _ _

/-- Without an occurrence that begins one, no attempt to connect comes about. -/
theorem undergo_undialed (host : Host) (s : Session) (occurrence : Occurrence)
    (absent : s.dial = none) (still : s.begins host occurrence = false) :
    (s.undergo host occurrence).dial = none := by
  have pushed (t : Session) (command : Command) (same : t.dial = none) :
      (t.push command).dial = none := by
    obtain ⟨commands, pushed, _⟩ := t.push_eq command
    rw [pushed]
    exact same
  cases occurrence with
  | post letter now =>
    rcases s.undergo_post host letter now with same | ⟨queued, _, _, same⟩ <;> rw [same] <;>
      exact absent
  | addHints hints => exact absent
  | reconnect hints =>
    obtain ⟨kept, same⟩ := s.reconnect_eq hints
    rw [undergo, same]
    exact pushed _ _ absent
  | close =>
    rw [undergo, close_eq]
    exact pushed _ _ absent
  | resetBackoff => exact pushed _ _ absent
  | attach greeted => exact pushed _ _ absent
  | shutdown => exact pushed _ _ absent
  | wrote bytes => exact absent
  | turn now random event =>
    obtain ⟨effects, asked, turned⟩ := Turn.handle_goes host now ⟨s, random, []⟩ event
    have same : s.asked host (.turn now random event) = effects := asked
    rcases turned.undialed absent with dials | gone
    · rw [begins, same, dials] at still
      cases still
    · exact gone
  | abort random =>
    rw [undergo_abort]
    rfl

/-- The attempt that failed is over, and no other begins with its failure. -/
theorem AttemptFails.ended {s : Session} {occurrence : Occurrence}
    (fails : s.AttemptFails occurrence) (host : Host) : s.dialFails occurrence = true ∧
      s.begins host occurrence = false ∧ (s.undergo host occurrence).dial = none := by
  have missed := fails.counted host
  obtain ⟨now, random, error, rfl, idle, dialing, unlinked, phase⟩ := fails
  refine ⟨by simp [dialFails, idle, dialing], ?_⟩
  obtain ⟨effects, asked, turned⟩ :=
    Turn.handle_goes host now ⟨s, random, []⟩ (.dialed (.error error))
  have same : s.asked host (.turn now random (.dialed (.error error))) = effects := asked
  rw [begins, same]
  unfold misses at missed
  change Turned host now s _ (s.undergo host (.turn now random (.dialed (.error error)))) effects
    at turned
  generalize s.undergo host (.turn now random (.dialed (.error error))) = after at *
  cases turned with
  | still => simp at missed
  | dialStale | dialRetry => exact ⟨rfl, rfl⟩
  | dialGiveUp =>
    refine ⟨List.any_eq_false.mpr ?_, rfl⟩
    exact s.forall_rejections (fun _ => nofun) nofun

/-- How the count of attempts is made up since a call for a fresh one, given whether no attempt
was under way at the call. -/
structure Renews (host : Host) (free : Prop) (s : Session) (r : Renewal) : Prop where
  /-- The count has the failures of new attempts and perhaps that of an older one. -/
  counts : s.Counts host (r.counted + r.stale.toNat)
  /-- Those that are counted have failed. -/
  failed : r.counted ≤ r.failed
  /-- Before a new attempt begins none of them fails. -/
  unbegun : r.begun = false → r.failed = 0
  /-- An older attempt that failed is over, and another one has to begin before it can fail. -/
  ended : r.begun = false → r.stale = true ∨ free → s.dial = none
  /-- The failure of an older attempt is only counted if there was one. -/
  fresh : free → r.stale = false

/-- An attempt that fails before a new one began was under way at the call, and is the first of
that kind in the count. -/
theorem Renews.older {host : Host} {free : Prop} {s : Session} {r : Renewal}
    (renews : s.Renews host free r) {occurrence : Occurrence}
    (fails : s.AttemptFails occurrence) (unbegun : r.begun = false) : r.stale = false ∧ ¬ free := by
  obtain ⟨_, _, _, _, _, dialing, _⟩ := fails
  have dials := Option.isSome_iff_ne_none.mp dialing
  exact ⟨Bool.eq_false_iff.mpr fun stale => dials (renews.ended unbegun (.inl stale)),
    fun free => dials (renews.ended unbegun (.inr free))⟩

/-- Where no attempt that is waited for fails, the count is kept or starts afresh. -/
theorem Renews.spared {host : Host} {free : Prop} {s : Session} {r : Renewal}
    (renews : s.Renews host free r) (occurrence : Occurrence)
    (unfailed : ¬ s.AttemptFails occurrence) :
    (s.undergo host occurrence).Renews host free (r.onward host s occurrence) := by
  have unmissed : s.misses host occurrence = false :=
    Bool.eq_false_iff.mpr fun missed => unfailed ((misses_iff host s occurrence).mp missed)
  have counts := renews.counts.undergo occurrence
  have older : (r.onward host s occurrence).stale =
      (!s.startsAfresh host occurrence && r.stale) := by
    simp [Renewal.onward, unmissed]
  have kept : (r.onward host s occurrence).counted =
      if s.startsAfresh host occurrence then 0 else r.counted := by
    simp [Renewal.onward, unmissed]
  have unbegun : (r.onward host s occurrence).begun = false →
      r.begun = false ∧ s.begins host occurrence = false := Bool.or_eq_false_iff.mp
  constructor
  case counts =>
    rw [older, kept]
    rw [recount, unmissed] at counts
    cases afresh : s.startsAfresh host occurrence <;> simpa [afresh] using counts
  case failed =>
    have fewer := renews.failed
    rw [kept]
    unfold Renewal.onward
    dsimp only
    split <;> split <;> omega
  case unbegun =>
    intro still
    have before := (unbegun still).1
    simpa [Renewal.onward, before] using renews.unbegun before
  case ended =>
    intro still reason
    obtain ⟨before, unasked⟩ := unbegun still
    refine undergo_undialed host s occurrence (renews.ended before ?_) unasked
    rw [older, Bool.and_eq_true] at reason
    exact reason.imp_left And.right
  case fresh =>
    intro undialed
    rw [older, renews.fresh undialed, Bool.and_false]

/-- A failure is counted as that of a new attempt if one began, and as that of an older one
otherwise, of which there is only one. The two cases differ in whether an attempt began since the
call. -/
theorem Renews.missed {host : Host} {free : Prop} {s : Session} {r : Renewal}
    (renews : s.Renews host free r) (occurrence : Occurrence)
    (fails : s.AttemptFails occurrence) :
    (s.undergo host occurrence).Renews host free (r.onward host s occurrence) := by
  have counts := renews.counts.undergo occurrence
  have missed := fails.counted host
  obtain ⟨failed, unasked, ended⟩ := fails.ended host
  have still : (r.onward host s occurrence).begun = r.begun := by
    simp [Renewal.onward, unasked]
  cases begun : r.begun with
  | true =>
    have one : (r.onward host s occurrence).failed = r.failed + 1 := by
      simp [Renewal.onward, begun, failed]
    have counted : (r.onward host s occurrence).counted =
        if s.startsAfresh host occurrence then 0 else r.counted + 1 := by
      simp [Renewal.onward, begun, missed]
    have older : (r.onward host s occurrence).stale =
        (!s.startsAfresh host occurrence && r.stale) := by
      simp [Renewal.onward, begun]
    constructor
    case counts =>
      rw [counted, older]
      rw [recount, missed] at counts
      cases afresh : s.startsAfresh host occurrence
      · simpa [afresh, Nat.add_right_comm] using counts
      · simpa [afresh] using counts
    case failed =>
      have fewer := renews.failed
      rw [counted, one]
      split <;> omega
    case unbegun => simp [still, begun]
    case ended => simp [still, begun]
    case fresh =>
      intro undialed
      rw [older, renews.fresh undialed, Bool.and_false]
  | false =>
    obtain ⟨unstale, bound⟩ := renews.older fails begun
    have counted : (r.onward host s occurrence).counted =
        if s.startsAfresh host occurrence then 0 else r.counted := by
      simp [Renewal.onward, begun]
    have older : (r.onward host s occurrence).stale = !s.startsAfresh host occurrence := by
      simp [Renewal.onward, begun, missed]
    have kept : (r.onward host s occurrence).failed = r.failed := by
      simp [Renewal.onward, begun]
    constructor
    case counts =>
      rw [counted, older]
      rw [recount, missed, unstale] at counts
      cases afresh : s.startsAfresh host occurrence <;> simpa [afresh] using counts
    case failed =>
      have fewer := renews.failed
      rw [counted, kept]
      split <;> omega
    case unbegun =>
      intro _
      rw [kept]
      exact renews.unbegun begun
    case ended => exact fun _ _ => ended
    case fresh => exact fun free => absurd free bound

/-- All through a life, the count of attempts is made up of the failures since the call. -/
theorem live_renews (host : Host) (free : Prop) (s : Session) (r : Renewal)
    (renews : s.Renews host free r) (past : List Occurrence) :
    (s.live host past).Renews host free (s.renewal host r past) := by
  induction past using List.reverseRecOn with
  | nil => exact renews
  | append_singleton past occurrence inductionHypothesis =>
    rw [renewal_append_one, live_append, live_one]
    by_cases fails : (s.live host past).AttemptFails occurrence
    · exact inductionHypothesis.missed occurrence fails
    · exact inductionHypothesis.spared occurrence fails

/-- A call to reconnect starts the count afresh, and no attempt began since then. -/
theorem Counts.renews {host : Host} {s : Session} {count : Nat} (counts : s.Counts host count)
    (hints : List String) : (s.undergo host (.reconnect hints)).Renews host (s.dial = none) {} where
  counts := by
    have called := counts.undergo (.reconnect hints)
    have afresh : s.startsAfresh host (.reconnect hints) = true := by
      simp [startsAfresh, Occurrence.isRenewal]
    rwa [recount, if_pos afresh] at called
  failed := Nat.le_refl 0
  unbegun := fun _ => rfl
  ended := by
    rintro - (stale | undialed)
    · cases stale
    · exact undergo_undialed host s (.reconnect hints) undialed rfl
  fresh := fun _ => rfl

/-- Whether a give-up at the next failure rests on as many new attempts as the options ask for:
one of them fails, and if the count has the failure of an older attempt, a new attempt failed
that the count does not have. -/
def Renewal.Suffices (r : Renewal) : Prop :=
  r.begun = true ∧ (r.stale = true → r.counted < r.failed)

/-- What a give-up rests on. -/
theorem Renews.surrendered {host : Host} {free : Prop} {s : Session} {r : Renewal}
    (renews : s.Renews host free r) (word : host.options.maxAttempts ≤ Ledger.maxAttempt)
    (occurrence : Occurrence) (gaveUp : (s.givesUp? host occurrence).isSome) :
    (host.options.maxAttempts ≤ (r.onward host s occurrence).failed ↔ r.Suffices) ∧
      host.options.maxAttempts ≤ (r.onward host s occurrence).failed + 1 ∧
      (free → host.options.maxAttempts ≤ (r.onward host s occurrence).failed) := by
  obtain ⟨fails, reached⟩ := (renews.counts.spent word occurrence).mp gaveUp
  have failed := (fails.ended host).1
  have fewer := renews.failed
  unfold Renewal.Suffices
  cases begun : r.begun with
  | true =>
    have one : (r.onward host s occurrence).failed = r.failed + 1 := by
      simp [Renewal.onward, begun, failed]
    rw [one]
    cases older : r.stale with
    | true =>
      rw [older, Bool.toNat_true] at reached
      refine ⟨?_, by omega, fun undialed => ?_⟩
      · simp only [forall_const, true_and]
        omega
      · cases older.symm.trans (renews.fresh undialed)
    | false =>
      rw [older, Bool.toNat_false] at reached
      refine ⟨?_, by omega, fun _ => by omega⟩
      simp only [reduceCtorEq, false_implies, and_true, iff_true]
      omega
  | false =>
    obtain ⟨unstale, bound⟩ := renews.older fails begun
    have unmet : (r.onward host s occurrence).failed = 0 := by
      simp [Renewal.onward, begun, renews.unbegun begun]
    rw [unstale, Bool.toNat_false] at reached
    rw [unmet]
    have unfailed := renews.unbegun begun
    refine ⟨?_, by omega, fun free => absurd free bound⟩
    simp only [reduceCtorEq, false_and, iff_false]
    omega

/-- After a call to reconnect the peer is given up, with all that is queued, only when as many
attempts have failed as the options allow, all of which began after the call; unless the failure
of the attempt that was under way at the call is in the count. Then one may be missing, but never
two. Without an attempt under way at the call none is missing. -/
theorem reconnect_renews (host : Host) (word : host.options.maxAttempts ≤ Ledger.maxAttempt)
    (peer : PeerId) (before : List Occurrence) (hints : List String) (past : List Occurrence)
    (occurrence : Occurrence) :
    let s := (fresh peer host.options).live host before
    let called := s.undergo host (.reconnect hints)
    let since := called.renewal host {} (past ++ [occurrence])
    ((called.live host past).givesUp? host occurrence).isSome →
      (host.options.maxAttempts ≤ since.failed ↔ (called.renewal host {} past).Suffices) ∧
        host.options.maxAttempts ≤ since.failed + 1 ∧
        (s.dial = none → host.options.maxAttempts ≤ since.failed) := by
  intro s called since gaveUp
  have begins : (fresh peer host.options).Counts host 0 := ⟨rfl, id, fun _ => rfl⟩
  have renews := (live_counts host _ 0 begins before).renews hints
  have lasting := live_renews host _ called {} renews past
  have surrendered := lasting.surrendered word occurrence gaveUp
  rwa [← renewal_append_one] at surrendered

/-- A kernel that gives a peer up at the first failure. -/
def hasty : Host := { aliceService.host with options := { maxAttempts := 1 } }

/-- The failure of the attempt that the call began. -/
theorem renewed_attempt_fails :
    let called := (fresh bob hasty.options).undergo hasty (.reconnect [])
    ((called.live hasty [.turn 0 quiet .command]).givesUp? hasty
        (.turn 0 quiet (.dialed (.error .connectionLost)))).isSome ∧
      hasty.options.maxAttempts ≤ (called.renewal hasty {} [.turn 0 quiet .command,
        .turn 0 quiet (.dialed (.error .connectionLost))]).failed := by
  have gaveUp : ((((fresh bob hasty.options).undergo hasty (.reconnect [])).live hasty
      [.turn 0 quiet .command]).givesUp? hasty
        (.turn 0 quiet (.dialed (.error .connectionLost)))).isSome := by rfl
  have word : hasty.options.maxAttempts ≤ Ledger.maxAttempt := by decide
  exact ⟨gaveUp, (reconnect_renews hasty word bob [] [] [.turn 0 quiet .command]
    (.turn 0 quiet (.dialed (.error .connectionLost))) gaveUp).2.2 rfl⟩

/-- A letter with a promise is queued, and an attempt is under way for it, before the call. -/
def waiting : List Occurrence := [.post ⟨[1], some ⟨"p"⟩⟩ (.ofMillis 0), .turn 0 quiet .wake]

/-- The failure of an attempt that was under way at the call gives the peer up, before any
attempt begins for the call. -/
theorem older_attempt_counts : ¬ ∀ host : Host, host.options.maxAttempts ≤ Ledger.maxAttempt →
    ∀ (peer : PeerId) (before : List Occurrence) (hints : List String) (past : List Occurrence)
      (occurrence : Occurrence),
    let called := ((fresh peer host.options).live host before).undergo host (.reconnect hints)
    ((called.live host past).givesUp? host occurrence).isSome →
      host.options.maxAttempts ≤ (called.renewal host {} (past ++ [occurrence])).failed := by
  intro renewing
  have enough := renewing hasty (by decide) bob waiting [] []
    (.turn 0 quiet (.dialed (.error .connectionLost))) rfl
  have unmet : ((((fresh bob hasty.options).live hasty waiting).undergo hasty
      (.reconnect [])).renewal hasty {}
        [.turn 0 quiet (.dialed (.error .connectionLost))]).failed = 0 := rfl
  rw [List.nil_append, unmet] at enough
  exact absurd enough (by decide)

end Session

end Courier
