import Courier.Proofs.Books

/-!
# Failed attempts are counted

A session counts the attempts to connect that failed since the count last started afresh: when it
began, when the application asked for it, when a connection was adopted, or when the peer was
given up. Only the failure of the attempt that a session waits for while it is connecting counts.
A failure that comes too late does not, and neither does a connection that is lost, nor one that
is hung up because another is kept. The count of the ledger goes up to a limit of its own, which
is that of a word of thirty-two bits.

If the options limit the attempts, the peer is given up exactly when the count reaches the limit;
otherwise it is never given up.
-/

namespace Courier

/-- A failure is counted, whether or not the peer is given up over it. -/
theorem Turn.failDial_failures (host : Host) (now : Nat) (t : Turn) :
    (t.failDial host now).session.ledger.tally.failures =
      t.session.ledger.tally.failures + 1 := by
  unfold failDial
  dsimp only
  split
  · split
    · rfl
    · next promises after given =>
      obtain ⟨moved, stepped, same⟩ := Option.map_eq_some_iff.mp given
      obtain ⟨phase, _, rfl⟩ := Option.map_eq_some_iff.mp stepped
      cases same
      rw [rejectAll_eq]
      rfl
  · split
    · rfl
    · next after given =>
      obtain ⟨phase, _, rfl⟩ := Option.map_eq_some_iff.mp given
      rfl

namespace Session

/-- Whether an occurrence makes the count of attempts start afresh. -/
def startsAfresh (host : Host) (s : Session) (occurrence : Occurrence) : Bool :=
  occurrence.isRenewal || (s.adopts? host occurrence).isSome ||
    (s.givesUp? host occurrence).isSome

/-- The failures since the count last started afresh, after one more occurrence. -/
def recount (host : Host) (s : Session) (count : Nat) (occurrence : Occurrence) : Nat :=
  if s.startsAfresh host occurrence then 0
  else if s.misses host occurrence then count + 1
  else count

/-- The failures since the count last started afresh, after a life that began with some. -/
def failures (host : Host) (s : Session) (count : Nat) : List Occurrence → Nat
  | [] => count
  | occurrence :: rest =>
    (s.undergo host occurrence).failures host (s.recount host count occurrence) rest

/-- A peer is given up when the count of that goes up. -/
theorem givesUp?_isSome (host : Host) (s : Session) (occurrence : Occurrence) :
    (s.givesUp? host occurrence).isSome ↔
      s.ledger.tally.giveUps < (s.undergo host occurrence).ledger.tally.giveUps := by
  unfold givesUp?
  by_cases grown : s.ledger.tally.giveUps < (s.undergo host occurrence).ledger.tally.giveUps
  · simp [grown]
  · simp [grown]

/-- What an occurrence does to the count of attempts. -/
inductive Retried (host : Host) (s : Session) (occurrence : Occurrence) (after : Ledger) :
    Prop where
  | kept (unfailed : ¬ s.AttemptFails occurrence)
      (running : s.startsAfresh host occurrence = false)
      (unmissed : s.misses host occurrence = false)
      (attempt : after.attempt = s.ledger.attempt)
      (giveUps : after.tally.giveUps = s.ledger.tally.giveUps)
  | renewed (unfailed : ¬ s.AttemptFails occurrence)
      (afresh : s.startsAfresh host occurrence = true)
      (unmissed : s.misses host occurrence = false) (attempt : after.attempt = 0)
      (giveUps : after.tally.giveUps = s.ledger.tally.giveUps)
  | missed (fails : s.AttemptFails occurrence)
      (running : s.startsAfresh host occurrence = false)
      (missed : s.misses host occurrence = true)
      (attempt : after.attempt = min (s.ledger.attempt + 1) Ledger.maxAttempt)
      (more : 0 < host.options.maxAttempts → after.attempt < host.options.maxAttempts)
      (giveUps : after.tally.giveUps = s.ledger.tally.giveUps)
  | gaveUp (fails : s.AttemptFails occurrence)
      (afresh : s.startsAfresh host occurrence = true)
      (missed : s.misses host occurrence = true) (attempt : after.attempt = 0)
      (limited : 0 < host.options.maxAttempts)
      (spent : host.options.maxAttempts ≤ min (s.ledger.attempt + 1) Ledger.maxAttempt)
      (giveUps : after.tally.giveUps = s.ledger.tally.giveUps + 1)

/-- The failure of the attempt that a session waits for is counted. -/
theorem AttemptFails.counted {s : Session} {occurrence : Occurrence}
    (fails : s.AttemptFails occurrence) (host : Host) : s.misses host occurrence = true := by
  obtain ⟨now, random, error, rfl, idle, dialing, unlinked, phase⟩ := fails
  have timely : ¬ (s.link.isSome = true ∨ s.ledger.phase ≠ .connecting) := by
    simp [unlinked, phase]
  have failed : (s.undergo host (.turn now random (.dialed (.error error)))).ledger.tally.failures =
      s.ledger.tally.failures + 1 := by
    have taken : Turn.handle host now ⟨s, random, []⟩ (.dialed (.error error)) =
        Turn.failDial host now ⟨{ s with dial := none }, random, []⟩ := by
      simp only [Turn.handle, idle, Turn.take, dialing, Turn.amend, timely, if_true, if_false]
    rw [undergo, taken]
    exact Turn.failDial_failures host now _
  unfold misses
  rw [failed]
  exact decide_eq_true (Nat.lt_succ_self _)

/-- Every occurrence does one of these things to the count of attempts. There is one case for each
entry in the books, as only two of them count a failure. -/
theorem retried (host : Host) (s : Session) (occurrence : Occurrence) :
    s.Retried host occurrence (s.undergo host occurrence).ledger := by
  have unmissed (same : (s.undergo host occurrence).ledger.tally.failures =
      s.ledger.tally.failures) : s.misses host occurrence = false := by
    simp [misses, same]
  have unfailed (same : (s.undergo host occurrence).ledger.tally.failures =
      s.ledger.tally.failures) : ¬ s.AttemptFails occurrence := by
    intro fails
    cases (unmissed same).symm.trans (fails.counted host)
  cases s.booked host occurrence with
  | kept uncalled unread unopened books =>
    refine .kept (unfailed books.failures) ?_ (unmissed books.failures) books.attempt books.giveUps
    simp [startsAfresh, uncalled, unopened, givesUp?_kept books.giveUps]
  | renewed called unread unopened books =>
    refine .renewed (unfailed books.failures) ?_ (unmissed books.failures) books.attempt
      books.giveUps
    simp [startsAfresh, called]
  | queued made evicted parcel now uncalled unread unopened room books =>
    have failures : (s.ledger.queued made evicted parcel now).tally.failures =
        s.ledger.tally.failures := by
      cases evicted <;> rfl
    have giveUps : (s.ledger.queued made evicted parcel now).tally.giveUps =
        s.ledger.tally.giveUps := by
      cases evicted <;> rfl
    have same := books.failures.trans failures
    refine .kept (unfailed same) ?_ (unmissed same) books.attempt (books.giveUps.trans giveUps)
    simp [startsAfresh, uncalled, unopened, givesUp?_kept (books.giveUps.trans giveUps)]
  | heeded intake uncalled read unopened books =>
    have heeded : (s.ledger.heeding intake.envelope).attempt = s.ledger.attempt ∧
        (s.ledger.heeding intake.envelope).tally = s.ledger.tally := by
      obtain ⟨_, _, same⟩ := s.ledger.heeding_eq intake.envelope
      rw [same]
      exact ⟨rfl, rfl⟩
    have same := books.failures.trans (congrArg Tally.failures heeded.2)
    have giveUps := books.giveUps.trans (congrArg Tally.giveUps heeded.2)
    refine .kept (unfailed same) ?_ (unmissed same) (books.attempt.trans heeded.1) giveUps
    simp [startsAfresh, uncalled, unopened, givesUp?_kept giveUps]
  | adopted greeted now uncalled unread opened books =>
    have counted : (s.ledger.onConnected host.incarnation greeted.hello now).tally.failures =
        s.ledger.tally.failures := by
      obtain ⟨_, _, _, _, same⟩ := s.ledger.onConnected_eq host.incarnation greeted.hello now
      rw [same]
      rfl
    have same := books.failures.trans counted
    refine .renewed (unfailed same) ?_ (unmissed same) books.attempt ?_
    · simp [startsAfresh, opened]
    · exact books.giveUps.trans (s.ledger.onConnected_bears _ _ _).giveUps
  | missed now fails more books =>
    have giveUps : (s.undergo host occurrence).ledger.tally.giveUps = s.ledger.tally.giveUps :=
      books.giveUps
    obtain ⟨uncalled, _, unopened⟩ := fails.unread host
    refine .missed fails ?_ (fails.counted host) books.attempt (books.attempt ▸ more) giveUps
    simp [startsAfresh, uncalled, unopened, givesUp?_kept giveUps]
  | gaveUp now fails limited spent books =>
    refine .gaveUp fails ?_ (fails.counted host) books.attempt limited spent books.giveUps
    have gaveUp : (s.givesUp? host occurrence).isSome :=
      (s.givesUp?_isSome host occurrence).mpr (books.giveUps.symm ▸ Nat.lt_succ_self _)
    simp [startsAfresh, gaveUp]

/-- What is counted is the failure of an attempt that the session waits for. -/
theorem misses_iff (host : Host) (s : Session) (occurrence : Occurrence) :
    s.misses host occurrence = true ↔ s.AttemptFails occurrence := by
  constructor
  · intro missed
    cases s.retried host occurrence with
    | kept _ _ unmissed | renewed _ _ unmissed => cases unmissed.symm.trans missed
    | missed fails | gaveUp fails => exact fails
  · exact fun fails => fails.counted host

/-- Anything but a call, an adoption or such a failure leaves the count alone. -/
theorem attempt_spared (host : Host) (s : Session) (occurrence : Occurrence)
    (uncalled : occurrence.isRenewal = false) (unopened : s.adopts? host occurrence = none)
    (unfailed : ¬ s.AttemptFails occurrence) :
    (s.undergo host occurrence).ledger.attempt = s.ledger.attempt := by
  cases s.retried host occurrence with
  | kept _ _ _ attempt => exact attempt
  | renewed _ afresh _ _ giveUps =>
    have gaveUp : (s.givesUp? host occurrence).isSome := by
      simpa [startsAfresh, uncalled, unopened] using afresh
    exact absurd ((givesUp?_isSome _ _ _).mp gaveUp) (by simp [giveUps])
  | missed fails | gaveUp fails => exact absurd fails unfailed

/-- How a session counts its attempts, given the failures since the count last started afresh. The
limit of the options is a word of thirty-two bits, like the count itself. -/
structure Retries (host : Host) (s : Session) (count : Nat) : Prop where
  /-- The attempts are these failures, as far as the count goes. -/
  attempt : s.ledger.attempt = min count Ledger.maxAttempt
  /-- What is counted is the failure of an attempt that the session waits for while it is
  connecting, and nothing else. -/
  counted : ∀ occurrence, s.misses host occurrence = true ↔ s.AttemptFails occurrence
  /-- Without such a failure, only a call for it or the adoption of a connection changes the
  count. -/
  spared : ∀ occurrence, occurrence.isRenewal = false → s.adopts? host occurrence = none →
    ¬ s.AttemptFails occurrence →
    (s.undergo host occurrence).ledger.attempt = s.ledger.attempt
  /-- The count stays below the limit. -/
  below : 0 < host.options.maxAttempts → s.ledger.attempt < host.options.maxAttempts
  /-- The peer is given up with the failure that makes the count reach the limit. -/
  spent : host.options.maxAttempts ≤ Ledger.maxAttempt → ∀ occurrence,
    (s.givesUp? host occurrence).isSome ↔
      s.AttemptFails occurrence ∧ count + 1 = host.options.maxAttempts
  /-- Without a limit the peer is never given up. -/
  unlimited : host.options.maxAttempts = 0 → s.ledger.tally.giveUps = 0

/-- The count agrees with the failures and stays below the limit. -/
structure Counts (host : Host) (s : Session) (count : Nat) : Prop where
  attempt : s.ledger.attempt = min count Ledger.maxAttempt
  below : 0 < host.options.maxAttempts → s.ledger.attempt < host.options.maxAttempts
  unlimited : host.options.maxAttempts = 0 → s.ledger.tally.giveUps = 0

/-- Every occurrence keeps the count in agreement. -/
theorem Counts.undergo {host : Host} {s : Session} {count : Nat} (counts : s.Counts host count)
    (occurrence : Occurrence) :
    (s.undergo host occurrence).Counts host (s.recount host count occurrence) := by
  unfold recount
  cases s.retried host occurrence with
  | kept unfailed running unmissed attempt giveUps =>
    rw [running, unmissed]
    exact ⟨attempt.trans counts.attempt, fun limited => attempt ▸ counts.below limited,
      fun unlimited => giveUps.trans (counts.unlimited unlimited)⟩
  | renewed unfailed afresh unmissed attempt giveUps =>
    rw [if_pos afresh]
    exact ⟨attempt.trans (Nat.zero_min _).symm, fun limited => attempt ▸ limited,
      fun unlimited => giveUps.trans (counts.unlimited unlimited)⟩
  | missed fails running missed attempt more giveUps =>
    rw [running, missed]
    refine ⟨?_, more, fun unlimited => giveUps.trans (counts.unlimited unlimited)⟩
    -- The limit of the count is kept by one more failure as well.
    have agrees := counts.attempt
    simp only [Bool.false_eq_true, if_false, if_true]
    omega
  | gaveUp fails afresh missed attempt limited spent giveUps =>
    rw [if_pos afresh]
    exact ⟨attempt.trans (Nat.zero_min _).symm, fun limited => attempt ▸ limited,
      fun unlimited => absurd unlimited (Nat.ne_of_gt limited)⟩

/-- All through a life, the count of the ledger agrees with the failures and stays below the
limit. -/
theorem live_counts (host : Host) (s : Session) (count : Nat) (counts : s.Counts host count)
    (life : List Occurrence) : (s.live host life).Counts host (s.failures host count life) := by
  induction life generalizing s count with
  | nil => exact counts
  | cons occurrence rest inductionHypothesis =>
    exact inductionHypothesis _ _ (counts.undergo occurrence)

/-- The peer is given up exactly at the failure that reaches the limit. -/
theorem Counts.spent {host : Host} {s : Session} {count : Nat} (counts : s.Counts host count)
    (word : host.options.maxAttempts ≤ Ledger.maxAttempt) (occurrence : Occurrence) :
    (s.givesUp? host occurrence).isSome ↔
      s.AttemptFails occurrence ∧ count + 1 = host.options.maxAttempts := by
  have agrees := counts.attempt
  have below := counts.below
  rw [givesUp?_isSome]
  cases s.retried host occurrence with
  | kept unfailed running unmissed attempt giveUps
  | renewed unfailed afresh unmissed attempt giveUps => simp [giveUps, unfailed]
  | missed fails running missed attempt more giveUps =>
    have short : count + 1 ≠ host.options.maxAttempts := by omega
    simp [giveUps, short]
  | gaveUp fails afresh missed attempt limited spent giveUps =>
    have reached : count + 1 = host.options.maxAttempts := by omega
    simp [giveUps, fails, reached]

/-- Every session counts its attempts so, whatever it lives through. -/
theorem live_retries (host : Host) (peer : PeerId) (life : List Occurrence) :
    ((fresh peer host.options).live host life).Retries host
      ((fresh peer host.options).failures host 0 life) := by
  have begins : (fresh peer host.options).Counts host 0 :=
    ⟨rfl, id, fun _ => rfl⟩
  have counts := live_counts host _ 0 begins life
  constructor
  case attempt => exact counts.attempt
  case counted => exact misses_iff host _
  case spared => exact attempt_spared host _
  case below => exact counts.below
  case spent => exact counts.spent
  case unlimited => exact counts.unlimited

end Session

end Courier
