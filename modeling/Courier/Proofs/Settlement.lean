import Courier.Proofs.Pledges
import Mathlib.Data.List.Induction

/-!
# Every promise is settled at most once

The notes of a life add up. The promises handed over are those that ceased to wait and those
that still wait, each under a number of its own. Those that ceased to wait were settled, in
that order, by one call each: with the first reply that named the binding, or with a rejection
when the peer was given up. Giving up rejects what waits at that moment in the order of the
bindings and ends with one report of it. A reply that comes later and names a binding that no
longer waits has no effect.

The law of one occurrence comes first; a life adds its occurrences up. What is told in one
occurrence is told in one turn, so that nothing comes between a rejection and the report of
giving up. That promises are released at all does not follow from sums: a turn that takes in
the first reply to a promise settles it, and the last failure permitted gives the peer up.
-/

namespace Courier

/-- Among elements with distinct keys one key has one element. -/
theorem filter_key {β : Type} (keys : List (Nat × β))
    (distinct : keys.Pairwise fun b c => b.1 ≠ c.1) (number : Nat) (value : β)
    (listed : (number, value) ∈ keys) :
    keys.filter (fun b => b.1 = number) = [(number, value)] := by
  induction keys with
  | nil => cases listed
  | cons first rest inductionHypothesis =>
    obtain ⟨apart, distinct⟩ := List.pairwise_cons.mp distinct
    rcases List.mem_cons.mp listed with rfl | behind
    · have none : rest.filter (fun b => b.1 = number) = [] := by
        apply List.filter_eq_nil_iff.mpr
        intro b among
        simpa using (apart b among).symm
      simp [none]
    · have other : first.1 ≠ number := apart _ behind
      simp [other, inductionHypothesis distinct behind]

/-- All of a report is part of the report of a give-up. -/
theorem Upcall.report_isReport (peer : PeerId) (bindings : List (Nat × PromiseId)) :
    (Upcall.report peer bindings).filter isReport = Upcall.report peer bindings := by
  apply List.filter_eq_self.mpr
  intro upcall listed
  rcases List.mem_append.mp listed with rejected | last
  · obtain ⟨_, _, rfl⟩ := List.mem_map.mp rejected
    rfl
  · rw [List.mem_singleton.mp last]
    rfl

/-- The calls of a report are the rejections of what waited, in the order of the bindings. -/
theorem Upcall.report_calls (peer : PeerId) (bindings : List (Nat × PromiseId)) :
    (Upcall.report peer bindings).filter isCall =
      bindings.map fun binding => rejection peer binding.2 := by
  rw [report, List.filter_append, List.filter_eq_self.mpr]
  · simp [isCall]
  · intro upcall listed
    obtain ⟨_, _, rfl⟩ := List.mem_map.mp listed
    rfl

namespace Session

section Occurrences

variable {host : Host} {s : Session} {occurrence : Occurrence}

/-- Effects that say nothing of promises tell nothing of them. -/
theorem told_unreported (unreported : ∀ effect ∈ s.asked host occurrence,
    effect.isOutcome = false) : (s.told host occurrence).filter Upcall.isCall = [] ∧
      (s.told host occurrence).filter Upcall.isReport = [] := by
  have silent : ∀ upcall ∈ s.told host occurrence,
      upcall.isCall = false ∧ upcall.isReport = false := by
    intro upcall listed
    obtain ⟨effect, asked, tells⟩ := List.mem_filterMap.mp listed
    have quiet := unreported effect asked
    cases effect with
    | tell said =>
      cases tells
      cases upcall with
      | message | restarted => exact ⟨rfl, rfl⟩
      | settled | gaveUp => cases quiet
    | _ => cases tells
  constructor
  · apply List.filter_eq_nil_iff.mpr
    intro upcall listed
    simp [(silent upcall listed).1]
  · apply List.filter_eq_nil_iff.mpr
    intro upcall listed
    simp [(silent upcall listed).2]

/-- Where no promise ceases to wait, none is redeemed. -/
theorem redeems_kept (kept : ∀ binding ∈ s.ledger.bindings,
    binding ∈ (s.undergo host occurrence).ledger.bindings) : s.redeems host occurrence = [] := by
  unfold redeems
  rw [List.map_eq_nil_iff, List.filter_eq_nil_iff]
  intro binding listed
  simpa using kept binding listed

/-- A promise that ceases to wait was waiting. -/
theorem redeems_bound : ∀ r ∈ s.redeems host occurrence, r.binding ∈ s.ledger.bindings := by
  intro r listed
  obtain ⟨binding, among, rfl⟩ := List.mem_map.mp listed
  exact (List.mem_filter.mp among).1

/-- The reply that names a binding settles its promise alone. -/
theorem redeems_answered (distinct : s.ledger.bindings.Pairwise fun b c => b.1 ≠ c.1)
    (number : Nat) (payload : List UInt8) (promise : PromiseId)
    (asked : s.asked host occurrence = [.tell (.settled promise (.ok payload))])
    (bound : (number, promise) ∈ s.ledger.bindings)
    (bindings : (s.undergo host occurrence).ledger.bindings =
      s.ledger.bindings.filter fun binding => binding.1 ≠ number) :
    s.redeems host occurrence = [⟨number, promise, some payload⟩] := by
  have gone : (s.ledger.bindings.filter fun binding =>
      binding ∉ (s.undergo host occurrence).ledger.bindings) =
        s.ledger.bindings.filter fun binding => binding.1 = number := by
    apply List.filter_congr
    intro binding listed
    simp [bindings, listed]
  rw [redeems, gone, filter_key _ distinct number promise bound]
  simp [told, asked, Effect.upcall?, Upcall.answer?]

/-- A report of giving up passes no reply on. -/
theorem report_unanswered (peer : PeerId) (bindings : List (Nat × PromiseId)) :
    (Upcall.report peer bindings).findSome? Upcall.answer? = none := by
  apply List.findSome?_eq_none_iff.mpr
  intro upcall listed
  rcases List.mem_append.mp listed with rejected | last
  · obtain ⟨binding, _, rfl⟩ := List.mem_map.mp rejected
    rfl
  · rw [List.mem_singleton.mp last]
    rfl

/-- Giving up releases every promise that waits, without a reply. -/
theorem redeems_all
    (told : s.told host occurrence = Upcall.report s.ledger.peer s.ledger.bindings)
    (bindings : (s.undergo host occurrence).ledger.bindings = []) :
    s.redeems host occurrence = s.ledger.bindings.map Redemption.rejected := by
  have all : (s.ledger.bindings.filter fun binding =>
      binding ∉ (s.undergo host occurrence).ledger.bindings) = s.ledger.bindings := by
    apply List.filter_eq_self.mpr
    simp [bindings]
  rw [redeems, all, told, report_unanswered]
  rfl

/-- Only an occurrence that counts a give-up gives the peer up. -/
theorem givesUp?_kept (giveUps : (s.undergo host occurrence).ledger.tally.giveUps =
    s.ledger.tally.giveUps) : s.givesUp? host occurrence = none := by
  simp [givesUp?, giveUps]

end Occurrences

/-- The notes of one occurrence add up. -/
structure Balanced (host : Host) (s : Session) (occurrence : Occurrence) : Prop where
  /-- A promise ceases to wait by being redeemed. -/
  waiting : (s.ledger.bindings ++ (s.pledge? occurrence).toList.map (·.binding)).Perm
    ((s.redeems host occurrence).map (·.binding) ++
      (s.undergo host occurrence).ledger.bindings)
  kept : List.Sublist (s.undergo host occurrence).ledger.bindings
    (s.ledger.bindings ++ (s.pledge? occurrence).toList.map (·.binding))
  /-- A promise is bound under the next number. -/
  number : ∀ pledge ∈ s.pledge? occurrence, pledge.number = s.ledger.nextBinding
  next : (s.undergo host occurrence).ledger.nextBinding =
    s.ledger.nextBinding + (s.pledge? occurrence).toList.length
  giveUps : (s.undergo host occurrence).ledger.tally.giveUps =
    s.ledger.tally.giveUps + (s.givesUp? host occurrence).toList.length
  /-- What is redeemed is told, and giving up is reported, in the occurrence that does it. -/
  called : (s.told host occurrence).filter Upcall.isCall =
    (s.redeems host occurrence).map (·.call s.ledger.peer)
  reported : (s.told host occurrence).filter Upcall.isReport =
    (s.givesUp? host occurrence).toList.flatMap (Upcall.report s.ledger.peer)
  /-- Giving up releases what waits. -/
  released : ((s.redeems host occurrence).filter (·.answer.isNone)).map (·.binding) =
    (s.givesUp? host occurrence).toList.flatten
  /-- A reply settles the promise that it names, and nothing waits under its name then. -/
  answered : ∀ r ∈ s.redeems host occurrence, ∀ payload, r.answer = some payload →
    s.reply? host occurrence = some (r.number, payload)
  settled : ∀ reply ∈ s.reply? host occurrence,
    ∀ binding ∈ (s.undergo host occurrence).ledger.bindings, binding.1 ≠ reply.1

/-- The notes of an occurrence that leaves the promises alone add up. -/
theorem Balanced.bears {host : Host} {s : Session} {occurrence : Occurrence}
    (bears : s.ledger.Bears (s.undergo host occurrence).ledger)
    (unpledged : s.pledge? occurrence = none)
    (settled : ∀ reply ∈ s.reply? host occurrence,
      ∀ binding ∈ s.ledger.bindings, binding.1 ≠ reply.1)
    (unreported : ∀ effect ∈ s.asked host occurrence, effect.isOutcome = false) :
    s.Balanced host occurrence := by
  have same : (s.undergo host occurrence).ledger.bindings = s.ledger.bindings := bears.bindings
  have redeems : s.redeems host occurrence = [] := by
    apply redeems_kept
    intro binding listed
    rw [same]
    exact listed
  have givesUp := givesUp?_kept bears.giveUps
  obtain ⟨uncalled, untold⟩ := told_unreported unreported
  constructor
  case waiting => simp [unpledged, redeems, same]
  case kept => simp [unpledged, same]
  case number => simp [unpledged]
  case next => simp [unpledged, bears.nextBinding]
  case giveUps => simp [givesUp, bears.giveUps]
  case called => simp [uncalled, redeems]
  case reported => simp [untold, givesUp]
  case released => simp [redeems, givesUp]
  case answered => simp [redeems]
  case settled =>
    rw [same]
    exact settled

/-- The notes of an occurrence that binds a promise add up. -/
theorem Balanced.pledged {host : Host} {s : Session} {occurrence : Occurrence} (pledge : Pledge)
    (noted : s.pledge? occurrence = some pledge) (number : pledge.number = s.ledger.nextBinding)
    (bindings : (s.undergo host occurrence).ledger.bindings =
      s.ledger.bindings ++ [pledge.binding])
    (nextBinding : (s.undergo host occurrence).ledger.nextBinding = s.ledger.nextBinding + 1)
    (giveUps : (s.undergo host occurrence).ledger.tally.giveUps = s.ledger.tally.giveUps)
    (unread : s.reply? host occurrence = none) (unasked : s.asked host occurrence = []) :
    s.Balanced host occurrence := by
  have redeems : s.redeems host occurrence = [] := by
    apply redeems_kept
    intro binding listed
    rw [bindings]
    exact List.mem_append_left _ listed
  have givesUp := givesUp?_kept giveUps
  have said : s.told host occurrence = [] := by simp [told, unasked]
  constructor
  case waiting => simp [noted, redeems, bindings]
  case kept => simp [noted, bindings]
  case number => simp [noted, number]
  case next => simp [noted, nextBinding]
  case giveUps => simp [givesUp, giveUps]
  case called => simp [said, redeems]
  case reported => simp [said, givesUp]
  case released => simp [redeems, givesUp]
  case answered => simp [redeems]
  case settled => simp [unread]

/-- The notes of a reply that settles the promise which it names add up. -/
theorem Balanced.replied {host : Host} {s : Session} {occurrence : Occurrence}
    (distinct : s.ledger.bindings.Pairwise fun b c => b.1 ≠ c.1)
    (unpledged : s.pledge? occurrence = none)
    (number : Nat) (payload : List UInt8) (promise : PromiseId)
    (asked : s.asked host occurrence = [.tell (.settled promise (.ok payload))])
    (named : s.reply? host occurrence = some (number, payload))
    (bound : (number, promise) ∈ s.ledger.bindings)
    (bindings : (s.undergo host occurrence).ledger.bindings =
      s.ledger.bindings.filter fun binding => binding.1 ≠ number)
    (nextBinding : (s.undergo host occurrence).ledger.nextBinding = s.ledger.nextBinding)
    (giveUps : (s.undergo host occurrence).ledger.tally.giveUps = s.ledger.tally.giveUps) :
    s.Balanced host occurrence := by
  have redeems := redeems_answered distinct number payload promise asked bound bindings
  have givesUp := givesUp?_kept giveUps
  have said : s.told host occurrence = [.settled promise (.ok payload)] := by
    simp [told, asked, Effect.upcall?]
  have one := filter_key s.ledger.bindings distinct number promise bound
  constructor
  case waiting =>
    have split := List.filter_append_perm (fun b : Nat × PromiseId => b.1 = number)
      s.ledger.bindings
    rw [one] at split
    simpa [unpledged, redeems, bindings, Redemption.binding] using split.symm
  case kept => simp [unpledged, bindings]
  case number => simp [unpledged]
  case next => simp [unpledged, nextBinding]
  case giveUps => simp [givesUp, giveUps]
  case called => simp [said, redeems, Upcall.isCall, Redemption.call]
  case reported => simp [said, givesUp, Upcall.isReport]
  case released => simp [redeems, givesUp]
  case answered => simp [redeems, named]
  case settled => simp [named, bindings]

/-- The notes of giving up add up: all that waits is released and rejected. -/
theorem Balanced.gaveUp {host : Host} {s : Session} {occurrence : Occurrence}
    (unpledged : s.pledge? occurrence = none) (unread : s.reply? host occurrence = none)
    (asked : s.asked host occurrence =
      (Upcall.report s.ledger.peer s.ledger.bindings).map .tell)
    (bindings : (s.undergo host occurrence).ledger.bindings = [])
    (nextBinding : (s.undergo host occurrence).ledger.nextBinding = s.ledger.nextBinding)
    (giveUps : (s.undergo host occurrence).ledger.tally.giveUps = s.ledger.tally.giveUps + 1) :
    s.Balanced host occurrence := by
  have said : s.told host occurrence = Upcall.report s.ledger.peer s.ledger.bindings := by
    simp [told, asked, List.filterMap_map, Function.comp_def, Effect.upcall?]
  have redeems := redeems_all said bindings
  have givesUp : s.givesUp? host occurrence = some s.ledger.bindings := by
    simp [givesUp?, giveUps]
  have rejected : ∀ r ∈ s.ledger.bindings.map Redemption.rejected, r.answer = none :=
    List.forall_mem_map.mpr fun _ _ => rfl
  constructor
  case waiting =>
    rw [unpledged, redeems, bindings, Redemption.rejected_binding, Option.toList_none, List.map_nil]
  case kept => simp [bindings]
  case number => simp [unpledged]
  case next => simp [unpledged, nextBinding]
  case giveUps => simp [givesUp, giveUps]
  case called =>
    rw [said, redeems, Upcall.report_calls, List.map_map]
    rfl
  case reported =>
    rw [said, givesUp, Upcall.report_isReport]
    simp
  case released =>
    have all : (s.ledger.bindings.map Redemption.rejected).filter (·.answer.isNone) =
        s.ledger.bindings.map Redemption.rejected :=
      List.filter_eq_self.mpr fun r listed => by simp [rejected r listed]
    rw [redeems, all, Redemption.rejected_binding, givesUp]
    simp
  case answered =>
    rw [redeems]
    intro r listed payload answer
    cases (rejected r listed).symm.trans answer
  case settled => simp [unread]

/-- The notes of every occurrence add up, as long as bindings are told apart by numbers. -/
theorem balanced (host : Host) (s : Session) (occurrence : Occurrence)
    (distinct : s.ledger.bindings.Pairwise fun b c => b.1 ≠ c.1) :
    s.Balanced host occurrence := by
  cases s.dealt host occurrence with
  | turned unpledged outcome =>
    generalize asked : s.asked host occurrence = effects at outcome
    cases outcome with
    | spared _ bears unbound unreported =>
      exact .bears bears unpledged unbound (asked ▸ unreported)
    | answered number payload promise named bound bindings nextBinding giveUps =>
      exact .replied distinct unpledged number payload promise asked named bound bindings
        nextBinding giveUps
    | gaveUp unread bindings nextBinding giveUps =>
      exact .gaveUp unpledged unread asked bindings nextBinding giveUps
  | pledged pledge noted number bindings nextBinding giveUps unread unasked =>
    exact .pledged pledge noted number bindings nextBinding giveUps unread unasked

/-- An occurrence that gives the peer up tells the report of it, and nothing else. -/
theorem told_givesUp {host : Host} {s : Session} {occurrence : Occurrence}
    {bindings : List (Nat × PromiseId)} (givesUp : s.givesUp? host occurrence = some bindings) :
    s.told host occurrence = Upcall.report s.ledger.peer bindings := by
  have spared (giveUps : (s.undergo host occurrence).ledger.tally.giveUps =
      s.ledger.tally.giveUps) : s.told host occurrence = Upcall.report s.ledger.peer bindings := by
    cases (givesUp?_kept giveUps).symm.trans givesUp
  cases s.dealt host occurrence with
  | turned unpledged outcome =>
    generalize asked : s.asked host occurrence = effects at outcome
    cases outcome with
    | spared _ bears => exact spared bears.giveUps
    | answered _ _ _ _ _ _ _ giveUps => exact spared giveUps
    | gaveUp unread none nextBinding giveUps =>
      have waited : bindings = s.ledger.bindings := by
        simpa [givesUp?, giveUps] using givesUp.symm
      simp [told, asked, waited, List.filterMap_map, Function.comp_def, Effect.upcall?]
  | pledged _ _ _ _ _ giveUps => exact spared giveUps

/-- Bindings wait in the order in which they were given out. -/
structure Numbered (s : Session) : Prop where
  ordered : s.ledger.bindings.Pairwise fun b c => b.1 < c.1
  below : ∀ binding ∈ s.ledger.bindings, binding.1 < s.ledger.nextBinding

/-- The notes of one occurrence add up. There is one case for each thing that an occurrence may do
with the promises: it spares them, a reply settles one of them, the peer is given up and all that
wait are rejected, or a new one is bound. -/
theorem Numbered.balanced {s : Session} (numbered : s.Numbered) (host : Host)
    (occurrence : Occurrence) : s.Balanced host occurrence := by
  apply Session.balanced
  exact numbered.ordered.imp Nat.ne_of_lt

/-- Bindings are still in the order in which they were given out after an occurrence. -/
theorem Numbered.undergo {s : Session} (numbered : s.Numbered) (host : Host)
    (occurrence : Occurrence) : (s.undergo host occurrence).Numbered := by
  have balanced := numbered.balanced host occurrence
  have old (binding : Nat × PromiseId) (listed : binding ∈ s.ledger.bindings) :
      binding.1 < (s.undergo host occurrence).ledger.nextBinding := by
    rw [balanced.next]
    exact Nat.lt_add_right _ (numbered.below binding listed)
  cases noted : s.pledge? occurrence with
  | none =>
    have kept := balanced.kept
    rw [noted, Option.toList_none, List.map_nil, List.append_nil] at kept
    exact ⟨numbered.ordered.sublist kept, fun binding listed => old binding (kept.subset listed)⟩
  | some pledge =>
    have kept := balanced.kept
    have number := balanced.number pledge noted
    have next := balanced.next
    rw [noted, Option.toList_some] at kept next
    constructor
    · apply List.Pairwise.sublist kept
      rw [List.pairwise_append]
      refine ⟨numbered.ordered, List.pairwise_singleton _ _, ?_⟩
      intro binding listed last only
      rw [List.mem_singleton.mp only]
      exact Nat.lt_of_lt_of_eq (numbered.below binding listed) number.symm
    · intro binding listed
      rcases List.mem_append.mp (kept.subset listed) with before | last
      · exact old binding before
      · rw [List.mem_singleton.mp last, next]
        exact Nat.lt_succ_of_le (Nat.le_of_eq number)

section Lives

variable (host : Host) (peer : PeerId) (life : List Occurrence)

/-- All through a life, bindings wait in the order in which they were given out. -/
theorem live_numbered : ((fresh peer host.options).live host life).Numbered := by
  induction life using List.reverseRecOn with
  | nil => exact ⟨.nil, nofun⟩
  | append_singleton life occurrence inductionHypothesis =>
    rw [live_append]
    exact inductionHypothesis.undergo host occurrence

/-- In whatever state a life leaves a session, the notes of what happens next add up. -/
theorem live_balanced (occurrence : Occurrence) :
    ((fresh peer host.options).live host life).Balanced host occurrence :=
  (live_numbered host peer life).balanced host occurrence

/-- Promises are bound under increasing numbers. -/
theorem pledged_numbers :
    (((fresh peer host.options).pledged host life).map (·.number)).Pairwise (· < ·) ∧
      ∀ pledge ∈ (fresh peer host.options).pledged host life,
        pledge.number < ((fresh peer host.options).live host life).ledger.nextBinding := by
  induction life using List.reverseRecOn with
  | nil => exact ⟨.nil, nofun⟩
  | append_singleton life occurrence inductionHypothesis =>
    obtain ⟨ordered, below⟩ := inductionHypothesis
    have balanced := live_balanced host peer life occurrence
    rw [pledged, along_append_one, live_append, live_one, balanced.next]
    cases noted : ((fresh peer host.options).live host life).pledge? occurrence with
    | none =>
      simp only [Option.toList_none, List.append_nil]
      exact ⟨ordered, below⟩
    | some pledge =>
      have number := balanced.number pledge noted
      simp only [Option.toList_some, List.map_append, List.map_cons, List.map_nil,
        List.length_singleton]
      constructor
      · rw [List.pairwise_append]
        refine ⟨ordered, List.pairwise_singleton _ _, ?_⟩
        intro n before m last
        obtain ⟨early, listed, rfl⟩ := List.mem_map.mp before
        rw [List.mem_singleton.mp last, number]
        exact below early listed
      · intro any listed
        rcases List.mem_append.mp listed with before | last
        · exact Nat.lt_succ_of_lt (below any before)
        · rw [List.mem_singleton.mp last, number]
          exact Nat.lt_succ_self _

/-- What was promised was redeemed, or still waits. -/
theorem pledged_perm : (((fresh peer host.options).pledged host life).map (·.binding)).Perm
    (((fresh peer host.options).redeemed host life).map (·.binding) ++
      ((fresh peer host.options).live host life).ledger.bindings) := by
  induction life using List.reverseRecOn with
  | nil => exact .refl _
  | append_singleton life occurrence inductionHypothesis =>
    have balanced := live_balanced host peer life occurrence
    rw [pledged, redeemed, along_append_one, along_append_one, live_append, live_one,
      List.map_append, List.map_append, List.append_assoc]
    refine (inductionHypothesis.append_right _).trans ?_
    rw [List.append_assoc]
    exact balanced.waiting.append_left _

/-- A peer was given up as often as the tally says. -/
theorem surrenders_length : ((fresh peer host.options).surrenders host life).length =
    ((fresh peer host.options).live host life).ledger.tally.giveUps := by
  induction life using List.reverseRecOn with
  | nil => rfl
  | append_singleton life occurrence inductionHypothesis =>
    have balanced := live_balanced host peer life occurrence
    rw [surrenders, along_append_one, live_append, live_one, balanced.giveUps, List.length_append,
      ← inductionHypothesis, surrenders]

/-- What was released without a reply waited when the peer was given up. -/
theorem redeemed_unanswered :
    (((fresh peer host.options).redeemed host life).filter (·.answer.isNone)).map (·.binding) =
      ((fresh peer host.options).surrenders host life).flatten := by
  induction life using List.reverseRecOn with
  | nil => rfl
  | append_singleton life occurrence inductionHypothesis =>
    have balanced := live_balanced host peer life occurrence
    rw [redeemed, surrenders, along_append_one, along_append_one, List.filter_append,
      List.map_append, List.flatten_append, balanced.released]
    exact congrArg (· ++ _) inductionHypothesis

/-- The calls that settle promises are those of the redemptions, in their order. -/
theorem hearings_calls : ((fresh peer host.options).hearings host life).filter Upcall.isCall =
    ((fresh peer host.options).redeemed host life).map (·.call peer) := by
  induction life using List.reverseRecOn with
  | nil => rfl
  | append_singleton life occurrence inductionHypothesis =>
    have called := (live_balanced host peer life occurrence).called
    rw [live_peer] at called
    rw [hearings, redeemed] at inductionHypothesis ⊢
    rw [along_append_one, along_append_one, List.filter_append, List.map_append,
      inductionHypothesis, called]
    rfl

/-- Rejections and reports are told for each time that the peer was given up, in full. -/
theorem hearings_reports :
    ((fresh peer host.options).hearings host life).filter Upcall.isReport =
      ((fresh peer host.options).surrenders host life).flatMap (Upcall.report peer) := by
  induction life using List.reverseRecOn with
  | nil => rfl
  | append_singleton life occurrence inductionHypothesis =>
    have reported := (live_balanced host peer life occurrence).reported
    rw [live_peer] at reported
    rw [hearings, surrenders] at inductionHypothesis ⊢
    rw [along_append_one, along_append_one, List.filter_append, List.flatMap_append,
      inductionHypothesis, reported]
    rfl

/-- Which replies were the first to name their bindings. -/
structure Firsts (answers : List (Nat × List UInt8)) (redeemed : List Redemption)
    (s : Session) : Prop where
  named : ∀ answer ∈ answers, answer.1 < s.ledger.nextBinding
  waiting : ∀ binding ∈ s.ledger.bindings, ∀ answer ∈ answers, answer.1 ≠ binding.1
  first : ∀ r ∈ redeemed, ∀ payload, r.answer = some payload →
    answers.find? (fun answer => answer.1 = r.number) = some (r.number, payload)

/-- An occurrence keeps track of the first replies. A reply that settles a promise is the first one
to name its binding, since the binding waited until then. -/
theorem Firsts.undergo {answers : List (Nat × List UInt8)} {redeemed : List Redemption}
    {s : Session} (firsts : Firsts answers redeemed s) (numbered : s.Numbered) (host : Host)
    (occurrence : Occurrence) :
    Firsts (answers ++ (s.reply? host occurrence).toList.filter
        fun reply => reply.1 < s.ledger.nextBinding)
      (redeemed ++ s.redeems host occurrence) (s.undergo host occurrence) := by
  have balanced := numbered.balanced host occurrence
  constructor
  case named =>
    intro answer listed
    rw [balanced.next]
    apply Nat.lt_add_right
    rcases List.mem_append.mp listed with before | now
    · exact firsts.named answer before
    · simpa using (List.mem_filter.mp now).2
  case waiting =>
    intro binding waits answer listed
    rcases List.mem_append.mp listed with before | now
    · rcases List.mem_append.mp (balanced.kept.subset waits) with old | new
      · exact firsts.waiting binding old answer before
      · -- A binding that is given out now was not named before.
        obtain ⟨pledge, noted, rfl⟩ := List.mem_map.mp new
        have number := balanced.number pledge (Option.mem_toList.mp noted)
        exact Nat.ne_of_lt (Nat.lt_of_lt_of_eq (firsts.named answer before) number.symm)
    · have replied := Option.mem_toList.mp (List.mem_filter.mp now).1
      exact (balanced.settled answer replied binding waits).symm
  case first =>
    intro r listed payload answer
    rw [List.find?_append]
    rcases List.mem_append.mp listed with before | now
    · rw [firsts.first r before payload answer]
      rfl
    · have waited := redeems_bound r now
      have unnamed : answers.find? (fun a => a.1 = r.number) = none := by
        apply List.find?_eq_none.mpr
        intro a among
        simpa using show a.1 ≠ r.number from firsts.waiting r.binding waited a among
      have given : r.number < s.ledger.nextBinding := numbered.below r.binding waited
      rw [unnamed, balanced.answered r now payload answer]
      simp [given]

/-- All through a life, promises are settled by the first replies to them. -/
theorem live_firsts : Firsts ((fresh peer host.options).answers host life)
    ((fresh peer host.options).redeemed host life) ((fresh peer host.options).live host life) := by
  induction life using List.reverseRecOn with
  | nil => exact ⟨nofun, nofun, nofun⟩
  | append_singleton life occurrence inductionHypothesis =>
    rw [answers, redeemed, along_append_one, along_append_one, live_append]
    exact inductionHypothesis.undergo (live_numbered host peer life) host occurrence

end Lives

/-- A session that takes in a reply for which nothing waits. -/
def disregarding (s : Session) (link : Link) (e : Envelope) (rest : ByteArray) : Session :=
  { s with
    link := some { link with buffer := rest }
    ledger := { s.ledger.heeding e with
      window := ((s.ledger.heeding e).window.receive e.seq).2
      tally := s.ledger.tally.received } }

/-- A reply that names a binding under which nothing waits only counts as received. -/
theorem handle_unbound (host : Host) (s : Session) (link : Link) (e : Envelope) (rest : ByteArray)
    (replyTo : Nat) (payload : List UInt8) (held : s.link = some link)
    (front : s.front? = some (e, rest))
    (body : e.body = .ok (some (.parcel (.reply replyTo payload))))
    (unbound : ∀ binding ∈ s.ledger.bindings, binding.1 ≠ replyTo) (now : Nat)
    (random : Random.Stream) : Turn.handle host now ⟨s, random, []⟩ .proceed =
      ⟨if e.seq ≤ s.ledger.window.received then s.dropping link e rest
        else s.disregarding link e rest, random, []⟩ := by
  by_cases old : e.seq ≤ s.ledger.window.received
  · rw [if_pos old]
    exact handle_again host s link e rest _ held front body old now random
  · rw [if_neg old]
    have heard := (s.ledger.heeding_deaf e).received
    have new : ((s.ledger.heeding e).window.receive e.seq).1 = false := by
      rw [Window.receive, if_neg (heard.symm ▸ old)]
    have free : (s.ledger.heeding e).bindings.find? (fun b => b.1 = replyTo) = none := by
      rw [(s.ledger.heeding_deaf e).bindings]
      apply List.find?_eq_none.mpr
      intro binding listed
      simpa using unbound binding listed
    rw [handle_parcel host s link e rest _ held front body now random, disregarding,
      ← s.ledger.heeding_tally e]
    simp [Turn.receiveParcel, new, Turn.record, Turn.amend, Turn.count, Ledger.count,
      Ledger.takeBinding, free]

/-- A reply that is not received yet settles the promise that waits under the binding it names,
and that promise alone. -/
theorem handle_bound (host : Host) (s : Session) (link : Link) (e : Envelope) (rest : ByteArray)
    (number : Nat) (payload : List UInt8) (promise : PromiseId) (held : s.link = some link)
    (front : s.front? = some (e, rest))
    (body : e.body = .ok (some (.parcel (.reply number payload))))
    (new : s.ledger.window.received < e.seq)
    (bound : s.ledger.bindings.find? (fun b => b.1 = number) = some (number, promise)) (now : Nat)
    (random : Random.Stream) :
    (Turn.handle host now ⟨s, random, []⟩ .proceed).effects =
        [.tell (.settled promise (.ok payload))] ∧
      (Turn.handle host now ⟨s, random, []⟩ .proceed).session.ledger.bindings =
        s.ledger.bindings.filter fun b => b.1 ≠ number := by
  obtain ⟨received, _, bindings⟩ := s.ledger.heeding_deaf e
  have passes : ((s.ledger.heeding e).window.receive e.seq).1 = false := by
    rw [Window.receive, if_neg (received.symm ▸ Nat.not_le_of_lt new)]
  have waits : (s.ledger.heeding e).bindings.find? (fun b => b.1 = number) =
      some (number, promise) := by
    rw [bindings]
    exact bound
  rw [handle_parcel host s link e rest _ held front body now random, ← bindings]
  simp [Turn.receiveParcel, passes, Turn.record, Turn.amend, Turn.count, Turn.emit, Ledger.count,
    Ledger.takeBinding, waits]

/-- How a turn releases promises, in whatever state the session is. -/
structure Releases (host : Host) : Prop where
  /-- A reply that is not received yet settles the promise that waits under its binding. -/
  replied : ∀ (s : Session) link e rest number payload promise, s.link = some link →
    s.front? = some (e, rest) → e.body = .ok (some (.parcel (.reply number payload))) →
    s.ledger.window.received < e.seq →
    s.ledger.bindings.find? (fun b => b.1 = number) = some (number, promise) →
    ∀ now random, (Turn.handle host now ⟨s, random, []⟩ .proceed).effects =
        [.tell (.settled promise (.ok payload))] ∧
      (Turn.handle host now ⟨s, random, []⟩ .proceed).session.ledger.bindings =
        s.ledger.bindings.filter fun b => b.1 ≠ number
  /-- The last failure permitted rejects all that wait, in the order of the bindings, and reports
  the give-up once behind them, all of it in the turn of the failure, which leaves the session
  idle with nothing waiting. -/
  gaveUp : ∀ s : Session, s.stage = .idle → s.dial.isSome → s.link = none →
    s.ledger.phase = .connecting → 0 < host.options.maxAttempts →
    host.options.maxAttempts ≤ min (s.ledger.attempt + 1) Ledger.maxAttempt →
    ∀ now random error, ∃ after, Turn.handle host now ⟨s, random, []⟩ (.dialed (.error error)) =
        ⟨after, (host.options.backoff.delay s.ledger.attempt random).2,
          s.ledger.bindings.map (fun b => .tell (.settled b.2 (.error (.connectionLost s.ledger.peer))))
            ++ [.tell .gaveUp]⟩ ∧
      after.ledger.bindings = [] ∧ after.stage = .idle ∧ after.ledger.phase = .disconnected ∧
      after.ledger.tally.giveUps = s.ledger.tally.giveUps + 1

/-- Every turn releases promises so. -/
theorem turns_release (host : Host) : Releases host := by
  constructor
  case replied =>
    intro s link e rest number payload promise held front body new bound now random
    exact handle_bound host s link e rest number payload promise held front body new bound now
      random
  case gaveUp =>
    intro s idle dialing unlinked phase limited spent now random error
    have takes : Turn.handle host now ⟨s, random, []⟩ (.dialed (.error error)) =
        Turn.take host now ⟨s, random, []⟩ (.dialed (.error error)) := by
      simp only [Turn.handle, idle]
    have gaveUp := Turn.take_exhausted host now error ⟨s, random, []⟩ dialing unlinked phase
      limited spent
    exact ⟨_, takes.trans gaveUp, rfl, idle, rfl, rfl⟩

/-- The promises of a life are settled once each. -/
structure SettlesOnce (host : Host) (origin : Session) (life : List Occurrence) : Prop extends
    Releases host where
  /-- Every promise is bound under a number of its own, and is redeemed under it at most once:
  it was redeemed or still waits, in the order of the numbers. -/
  numbered : ((origin.pledged host life).map (·.number)).Pairwise (· < ·)
  once : ((origin.redeemed host life).map (·.number)).Nodup
  waiting : ((origin.pledged host life).map (·.binding)).Perm
    ((origin.redeemed host life).map (·.binding) ++ (origin.live host life).ledger.bindings)
  ordered : (origin.live host life).ledger.bindings.Pairwise fun b c => b.1 < c.1
  /-- The application is told of the redemptions, one call for each, in their order. -/
  settled : (origin.hearings host life).filter Upcall.isCall =
    (origin.redeemed host life).map (·.call origin.ledger.peer)
  /-- However much of what a life tells was told so far, the promises handed over are those
  whose calls were made, those whose calls are due, and those that wait. -/
  counted : ∀ made due, origin.hearings host life = made ++ due →
    (origin.pledged host life).length = (made.filter Upcall.isCall).length +
      (due.filter Upcall.isCall).length + (origin.live host life).ledger.bindings.length
  /-- A promise is settled with the first reply that names its binding. -/
  first : ∀ r ∈ origin.redeemed host life, ∀ payload, r.answer = some payload →
    (origin.answers host life).find? (fun answer => answer.1 = r.number) =
      some (r.number, payload)
  /-- The others waited when the peer was given up, all that waited then, and are rejected in
  the order of the bindings, with one report of giving up behind them. -/
  released : ((origin.redeemed host life).filter (·.answer.isNone)).map (·.binding) =
    (origin.surrenders host life).flatten
  surrendered : (origin.surrenders host life).length =
    (origin.live host life).ledger.tally.giveUps
  reported : (origin.hearings host life).filter Upcall.isReport =
    (origin.surrenders host life).flatMap (Upcall.report origin.ledger.peer)
  whole : ∀ occurrence bindings,
    (origin.live host life).givesUp? host occurrence = some bindings →
    (origin.live host life).told host occurrence = Upcall.report origin.ledger.peer bindings
  /-- Another reply to a promise that waits no longer tells nothing and settles nothing. -/
  late : ∀ r ∈ origin.redeemed host life, ∀ link e rest payload,
    (origin.live host life).link = some link →
    (origin.live host life).front? = some (e, rest) →
    e.body = .ok (some (.parcel (.reply r.number payload))) →
    ∀ now random, Turn.handle host now ⟨origin.live host life, random, []⟩ .proceed =
      ⟨if e.seq ≤ (origin.live host life).ledger.window.received then
          (origin.live host life).dropping link e rest
        else (origin.live host life).disregarding link e rest, random, []⟩

/-- Whatever a session lives through, its promises are settled once each. What adds up along a life
comes from the notes of each occurrence, and that promises are released comes from what a turn
does. -/
theorem live_settlesOnce (host : Host) (peer : PeerId) (life : List Occurrence) :
    (fresh peer host.options).SettlesOnce host life := by
  have numbered := (pledged_numbers host peer life).1
  have waiting := pledged_perm host peer life
  have settled := hearings_calls host peer life
  -- The numbers of what was redeemed and of what waits are those that were given out.
  have distinct : (((fresh peer host.options).redeemed host life).map (·.number) ++
      ((fresh peer host.options).live host life).ledger.bindings.map (·.1)).Nodup := by
    have numbers := waiting.map Prod.fst
    rw [List.map_append, List.map_map, List.map_map] at numbers
    exact numbers.nodup (numbered.imp Nat.ne_of_lt)
  constructor
  case toReleases => exact turns_release host
  case numbered => exact numbered
  case once => exact (List.nodup_append.mp distinct).1
  case waiting => exact waiting
  case ordered => exact (live_numbered host peer life).ordered
  case settled => exact settled
  case counted =>
    intro made due told
    have promised := waiting.length_eq
    have calls := congrArg List.length settled
    rw [told] at calls
    simp only [List.filter_append, List.length_append, List.length_map] at promised calls
    omega
  case first => exact (live_firsts host peer life).first
  case released => exact redeemed_unanswered host peer life
  case surrendered => exact surrenders_length host peer life
  case reported => exact hearings_reports host peer life
  case whole =>
    intro occurrence bindings givesUp
    have told := told_givesUp givesUp
    rw [live_peer] at told
    exact told
  case late =>
    intro r listed link e rest payload held front body now random
    refine handle_unbound host _ link e rest r.number payload held front body ?_ now random
    intro binding waits same
    have apart := (List.nodup_append.mp distinct).2.2
    exact apart r.number (List.mem_map_of_mem listed) binding.1 (List.mem_map_of_mem waits)
      same.symm

end Session

end Courier
