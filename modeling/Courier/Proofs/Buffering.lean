import Courier.Proofs.Confining

/-!
# What is held of a stream

A frame that is taken uses up more than a header, and no more than the largest frame has. So
going through the frames in a buffer comes to its end, whatever the lengths in their headers say,
and bytes that wait for more are fewer than the largest frame has. That a frame has more than a
header does not follow from its length, which may be that of a header: nothing at all is no
envelope.

A session reads only when it is idle, and it is idle only when no frame is left to take. What a
buffer holds is bounded from this, along every life of a session.
-/

namespace Courier

open Courier.Frame Courier.Handshake

namespace Frame

/-- The most bytes that a frame may have. -/
def largest : Nat := headerSize + maxBody

/-- Nothing at all is no envelope. -/
theorem openBody_empty (h : Header) (e : Envelope) : openBody h [] ≠ .ok e := by
  intro opened
  unfold openBody at opened
  dsimp only at opened
  split at opened
  · cases opened
  · cases opened

/-- Eight bytes are a header. -/
theorem ofBytes?_eight (bytes : List UInt8) (eight : bytes.length = headerSize) :
    Header.ofBytes? bytes ≠ none := by
  match bytes, eight with
  | [_, _, _, _, _, _, _, _], _ => exact nofun

/-- A buffer without a header is shorter than one. -/
theorem size_of_headless (buffer : ByteArray)
    (headless : Header.ofBytes? (slice buffer 0 headerSize) = none) :
    buffer.size < headerSize := by
  apply Nat.lt_of_not_le
  intro enough
  apply ofBytes?_eight _ _ headless
  rw [slice, extract_bytes, List.drop_zero, Nat.sub_zero, List.length_take, ← size_bytes]
  exact Nat.min_eq_left enough

/-- The length in a header that is sound is at most that of the largest frame. -/
theorem length_le_largest (h : Header) (sound : h.fault? = none) : h.length ≤ largest := by
  unfold Header.fault? at sound
  split at sound
  · cases sound
  · split at sound
    · cases sound
    · unfold largest
      omega

/-- A frame that is taken has more than a header, no more than the largest one, and no more than
the buffer holds. -/
theorem next?_takes (buffer : ByteArray) (e : Envelope) (rest : ByteArray)
    (taken : next? buffer = .ok (some (e, rest))) : ∃ length,
      headerSize < length ∧ length ≤ largest ∧ length ≤ buffer.size ∧
        rest = buffer.extract length buffer.size := by
  have found := next?_found buffer
  rw [taken] at found
  cases found with
  | whole h header sound complete e opened =>
    refine ⟨h.length, ?_, length_le_largest h sound, complete, rfl⟩
    apply Nat.lt_of_le_of_ne (headerSize_le_length h sound)
    intro bare
    rw [← bare] at opened
    have empty : slice buffer headerSize headerSize = [] := by
      rw [slice, extract_bytes, Nat.sub_self, List.take_zero]
    rw [empty] at opened
    exact openBody_empty h e opened

/-- What is left behind a frame that is taken. -/
theorem next?_leaves (buffer : ByteArray) (e : Envelope) (rest : ByteArray)
    (taken : next? buffer = .ok (some (e, rest))) : rest.size + headerSize < buffer.size := by
  obtain ⟨length, more, _, within, rfl⟩ := next?_takes buffer e rest taken
  rw [ByteArray.size_extract]
  omega

/-- Bytes that wait for more are fewer than the largest frame has. -/
theorem next?_waits (buffer : ByteArray) (incomplete : next? buffer = .ok none) :
    buffer.size < largest := by
  have found := next?_found buffer
  rw [incomplete] at found
  cases found with
  | short headless =>
    have short := size_of_headless buffer headless
    unfold largest
    omega
  | incomplete h header sound short => exact Nat.lt_of_lt_of_le short (length_le_largest h sound)

/-- When a frame is complete only with what was added last, what is left behind it is part of
that. -/
theorem next?_leaves_last (held piece : ByteArray) (e : Envelope) (rest : ByteArray)
    (incomplete : next? held = .ok none) (taken : next? (held ++ piece) = .ok (some (e, rest))) :
    rest.size < piece.size := by
  have before := next?_found held
  have found := next?_found (held ++ piece)
  rw [incomplete] at before
  rw [taken] at found
  cases found with
  | whole h header sound complete e opened =>
    -- The frame is longer than what was held before: its header was still missing, or it was there
    -- and said so.
    have longer : held.size < h.length := by
      cases before with
      | short headless =>
        have short := size_of_headless held headless
        have long := headerSize_le_length h sound
        omega
      | incomplete early begun _ short =>
        cases (ofBytes?_append held piece early begun).symm.trans header
        exact short
    rw [ByteArray.size_append] at complete
    rw [ByteArray.size_extract, ByteArray.size_append]
    omega

end Frame

/-- Whether an occurrence is the turn that goes on with what a session is in the middle of. -/
def Occurrence.proceeds : Occurrence → Bool
  | .turn _ _ .proceed => true
  | _ => false

namespace Session

/-- The bytes that wait to be read as frames. -/
def buffered (s : Session) : Nat := (s.link.map (·.buffer.size)).getD 0

/-- Whether a session is going through the frames in its buffer: it looks for the next one, or the
application is at work on a message. -/
def Reads (s : Session) : Prop := s.stage = .reading ∨ ∃ replyTo, s.stage = .handling replyTo

/-- Whether a session looks for a frame. -/
def looks (s : Session) (occurrence : Occurrence) : Bool :=
  s.stage = .reading && occurrence.proceeds

/-- How often a session looks for a frame in a life. -/
def lookings (host : Host) (s : Session) : List Occurrence → Nat
  | [] => 0
  | occurrence :: life =>
    (s.looks occurrence).toNat + (s.undergo host occurrence).lookings host life

/-- Bytes are received by a session that is idle. -/
theorem piece?_received {s : Session} {occurrence : Occurrence} {bytes : ByteArray}
    (heard : s.piece? occurrence = some bytes) : s.stage = .idle ∧
      ∃ now random, occurrence = .turn now random (.received bytes) := by
  unfold piece? at heard
  split at heard
  · next now random read =>
    split at heard
    · next ready =>
      cases heard
      exact ⟨ready.1, now, random, rfl⟩
    · cases heard
  · cases heard

/-- A session that goes through its frames is not idle. -/
theorem Reads.not_idle {s : Session} (reads : s.Reads) : s.stage ≠ .idle := by
  rcases reads with stage | ⟨replyTo, stage⟩ <;> simp [stage]

/-- Whether an occurrence is what a session goes on with by itself while it goes through the frames
in its buffer: it looks for the next one, or the application is done with a message. -/
def GoesOnBy (s : Session) : Occurrence → Prop
  | .turn _ _ .proceed => s.stage = .reading
  | .turn _ _ (.replied _) => ∃ replyTo, s.stage = .handling replyTo
  | _ => False

/-- Whether a life is what a session goes through by itself. -/
def GoesThrough (host : Host) (s : Session) : List Occurrence → Prop
  | [] => True
  | occurrence :: life =>
    s.GoesOnBy occurrence ∧ (s.undergo host occurrence).GoesThrough host life

/-- A limit to the turns until a session comes to the end of the frames: two for each frame that
its buffer has room for, one to find nothing more, and one if the application is at work. -/
def rounds (s : Session) : Nat :=
  match s.stage with
  | .reading => 2 * (s.buffered / (headerSize + 1)) + 1
  | .handling _ => 2 * (s.buffered / (headerSize + 1)) + 2
  | _ => 0

/-- A limit to the turns that a session has left before it. -/
theorem rounds_le (s : Session) : s.rounds ≤ 2 * (s.buffered / (headerSize + 1)) + 2 := by
  unfold rounds
  split <;> omega

/-- Every turn that a session takes by itself lowers the limit. -/
theorem rounds_lowered (host : Host) (s : Session) (occurrence : Occurrence)
    (goesOn : s.GoesOnBy occurrence) : (s.undergo host occurrence).rounds < s.rounds := by
  unfold GoesOnBy at goesOn
  split at goesOn
  · next now random =>
    have before : s.rounds = 2 * (s.buffered / (headerSize + 1)) + 1 := by simp [rounds, goesOn]
    rcases s.undergo_reading host now random goesOn with
      rests | ⟨link, e, rest, held, complete, shorter, _⟩
    · have after : (s.undergo host (.turn now random .proceed)).rounds = 0 := by
        simp [rounds, rests]
      omega
    · have less := next?_leaves link.buffer e rest complete
      have after := (s.undergo host (.turn now random .proceed)).rounds_le
      have fewer : rest.size / (headerSize + 1) + 1 ≤ link.buffer.size / (headerSize + 1) := by
        rw [← Nat.add_div_right _ (Nat.succ_pos headerSize)]
        exact Nat.div_le_div_right less
      simp only [buffered, held, shorter, Option.map_some, Option.getD_some] at before after
      omega
  · next now random answer =>
    obtain ⟨replyTo, handling⟩ := goesOn
    obtain ⟨reading, same⟩ := s.undergo_replied host now random replyTo handling answer
    simp [rounds, buffered, reading, same, handling]
  · cases goesOn

/-- A session that goes through its buffer by itself does so in no more turns than that, whatever
the bytes are. -/
theorem goesThrough_rounds (host : Host) (s : Session) (life : List Occurrence)
    (goes : s.GoesThrough host life) : life.length + (s.live host life).rounds ≤ s.rounds := by
  induction life generalizing s with
  | nil => exact Nat.le_of_eq (Nat.zero_add _)
  | cons occurrence life inductionHypothesis =>
    have later := inductionHypothesis (s.undergo host occurrence) goes.2
    have lowered := s.rounds_lowered host occurrence goes.1
    rw [live_cons, List.length_cons]
    omega

/-- A session that looks for a frame and does not come to the end of them uses up more than a
header. -/
theorem looking_takes (host : Host) (s : Session) (now : Nat) (random : Random.Stream)
    (reading : s.stage = .reading)
    (onward : (s.undergo host (.turn now random .proceed)).Reads) :
    (s.undergo host (.turn now random .proceed)).buffered + headerSize < s.buffered := by
  rcases s.undergo_reading host now random reading with
    rests | ⟨link, e, rest, held, complete, shorter, _⟩
  · exact absurd rests onward.not_idle
  · have less := next?_leaves link.buffer e rest complete
    simpa [buffered, held, shorter] using less

/-- Nothing is added to the buffer while a session goes through its frames. -/
theorem reads_buffered (host : Host) (s : Session) (occurrence : Occurrence) (reads : s.Reads)
    (onward : (s.undergo host occurrence).Reads) :
    (s.undergo host occurrence).buffered ≤ s.buffered := by
  have busy := reads.not_idle
  have carried := s.carried host occurrence
  unfold buffered
  cases carried with
  | kept _ _ _ link => rw [link]
  | dropped _ link =>
    rw [link]
    exact Nat.zero_le _
  | received bytes link _ heard _ _ _ _ => exact absurd (piece?_received heard).1 busy
  | read intake rest link _ _ _ held complete shorter _ =>
    have less := next?_shorter link.buffer intake.envelope rest complete
    simp only [held, shorter, Option.map_some, Option.getD_some]
    exact Nat.le_of_lt less
  | joined greeted _ _ stage =>
    rcases onward with reading | ⟨replyTo, handling⟩
    · cases stage.symm.trans reading
    · cases stage.symm.trans handling

/-- As long as a session goes through the frames in its buffer, every time that it looks for one it
uses up more than a header of what was in the buffer when it began. -/
theorem lookings_bounded (host : Host) (s : Session) (life : List Occurrence)
    (reads : ∀ before, before <+: life → (s.live host before).Reads) :
    s.lookings host life * (headerSize + 1) + (s.live host life).buffered ≤ s.buffered := by
  -- The bytes in the buffer pay for the looks still to come, and nothing adds to them meanwhile.
  induction life generalizing s with
  | nil => simp [lookings]
  | cons occurrence life inductionHypothesis =>
    have here : s.Reads := reads [] List.nil_prefix
    have next : (s.undergo host occurrence).Reads :=
      reads [occurrence] (List.cons_prefix_cons.mpr ⟨rfl, List.nil_prefix⟩)
    have later := inductionHypothesis (s.undergo host occurrence) fun before first =>
      reads (occurrence :: before) (List.cons_prefix_cons.mpr ⟨rfl, first⟩)
    have kept := s.reads_buffered host occurrence here next
    rw [live_cons, lookings, Nat.add_mul]
    by_cases looking : s.looks occurrence = true
    · have takes : (s.undergo host occurrence).buffered + headerSize < s.buffered := by
        simp only [looks, Bool.and_eq_true, decide_eq_true_eq] at looking
        obtain ⟨reading, proceeds⟩ := looking
        unfold Occurrence.proceeds at proceeds
        split at proceeds
        · next now random => exact s.looking_takes host now random reading next
        · cases proceeds
      rw [looking, Bool.toNat_true, Nat.one_mul]
      omega
    · rw [Bool.not_eq_true] at looking
      rw [looking, Bool.toNat_false, Nat.zero_mul]
      omega

/-- A session that looks for frames more often than there may be any in its buffer has come to the
end of them in between. -/
theorem lookings_end (host : Host) (s : Session) (life : List Occurrence)
    (often : s.buffered < s.lookings host life * (headerSize + 1)) :
    ∃ before, before <+: life ∧ ¬ (s.live host before).Reads := by
  by_contra onward
  have reads (before : List Occurrence) (first : before <+: life) :
      (s.live host before).Reads := by
    by_contra ended
    exact onward ⟨before, first, ended⟩
  have bounded := s.lookings_bounded host life reads
  omega

/-- What is left when a session comes to the end of the frames and holds its connection is what
waits for more. -/
theorem left_waits (host : Host) (s : Session) (now : Nat) (random : Random.Stream)
    (reading : s.stage = .reading) (link : Link)
    (ended : (s.undergo host (.turn now random .proceed)).stage = .idle)
    (held : (s.undergo host (.turn now random .proceed)).link = some link) :
    s.link = some link ∧ next? link.buffer = .ok none := by
  have carried := s.carried host (.turn now random .proceed)
  cases carried with
  | kept _ _ _ same rests =>
    have before : s.link = some link := same.symm.trans held
    refine ⟨before, ?_⟩
    rcases rests ended with idle | incomplete
    · cases reading.symm.trans idle
    · exact incomplete link before
  | dropped _ gone => cases gone.symm.trans held
  | received bytes _ _ heard => cases heard
  | read _ _ _ _ _ _ _ _ _ working => exact absurd ended working
  | joined _ _ _ stage => cases stage.symm.trans ended

end Session

/-- Whether what came with a greeted connection is no more than is read at a time. -/
def Greeted.Short (greeted : Greeted) : Prop := greeted.surplus.size ≤ chunk

/-- Whether what an event brings from a connection is no more than is read at a time. -/
def Event.Short : Event → Prop
  | .dialed (.ok greeted) => greeted.Short
  | .received bytes => bytes.size ≤ chunk
  | _ => True

/-- Whether what an occurrence brings from a connection is no more than is read at a time. -/
def Occurrence.Short : Occurrence → Prop
  | .attach greeted => greeted.Short
  | .turn _ _ event => event.Short
  | _ => True

namespace Session

/-- A session whose buffer is bounded, and which is told to attach only what is no more than one
read. -/
structure Contained (s : Session) : Prop where
  /-- The buffer holds less than the largest frame and one more read. -/
  buffer : ∀ link, s.link = some link → link.buffer.size < largest + chunk
  /-- An idle session has no frame left to take. -/
  rests : s.stage = .idle → ∀ link, s.link = some link → link.buffer.size < largest
  confined : s.Confined Greeted.Short

/-- A session of a peer not heard of before holds nothing. -/
theorem fresh_contained (peer : PeerId) (options : Options) : (fresh peer options).Contained :=
  ⟨nofun, nofun, fresh_confined peer options⟩

/-- A connection that is adopted came with no more than one read. -/
theorem Contained.adopts {s : Session} (contained : s.Contained) {host : Host}
    {occurrence : Occurrence} (short : occurrence.Short) {greeted : Greeted}
    (opened : s.adopts? host occurrence = some greeted) : greeted.Short := by
  have offered : s.offered? occurrence = some greeted :=
    (Option.filter_eq_some_iff.mp opened).1
  unfold offered? at offered
  split at offered
  · split at offered
    · next other rest next =>
      cases offered
      exact contained.confined.commands greeted (next ▸ List.mem_cons_self)
    · cases offered
  · cases offered
    exact short
  · cases offered

/-- Whatever happens to a session, its buffer stays bounded, as long as reads are. A session reads
only when it is idle, and then its buffer has less than the largest frame. -/
theorem Contained.undergo {s : Session} (contained : s.Contained) (host : Host)
    (occurrence : Occurrence) (short : occurrence.Short) :
    (s.undergo host occurrence).Contained := by
  have confined : (s.undergo host occurrence).Confined Greeted.Short := by
    apply contained.confined.undergo host occurrence
    · rintro greeted rfl
      exact short
    · rintro now random greeted rfl
      exact short
  have carried := s.carried host occurrence
  generalize s.undergo host occurrence = after at confined carried
  cases carried with
  | kept _ _ _ link rests =>
    refine ⟨link ▸ contained.buffer, fun idle other held => ?_, confined⟩
    rw [link] at held
    -- A session that becomes idle found nothing complete.
    rcases rests idle with rested | incomplete
    · exact contained.rests rested other held
    · exact next?_waits other.buffer (incomplete other held)
  | dropped _ gone => exact ⟨by simp [gone], by simp [gone], confined⟩
  | received bytes link _ heard _ held longer stage =>
    obtain ⟨idle, now, random, rfl⟩ := piece?_received heard
    have few : bytes.size ≤ chunk := short
    have before := contained.rests idle link held
    refine ⟨fun other same => ?_, by simp [stage], confined⟩
    cases longer.symm.trans same
    rw [ByteArray.size_append]
    omega
  | read intake rest link _ _ _ held complete shorter working =>
    have before := contained.buffer link held
    have less := next?_shorter link.buffer intake.envelope rest complete
    refine ⟨fun other same => ?_, fun idle => absurd idle working, confined⟩
    cases shorter.symm.trans same
    exact Nat.lt_trans less before
  | joined greeted opened link stage =>
    have few : greeted.surplus.size ≤ chunk := contained.adopts short opened
    have positive : 0 < largest := by decide
    refine ⟨fun other same => ?_, by simp [stage], confined⟩
    cases link.symm.trans same
    dsimp only
    omega

/-- All through a life the buffer of a session is bounded, as long as no more is read at a time. -/
theorem Contained.live {s : Session} (contained : s.Contained) (host : Host)
    (life : List Occurrence) (short : ∀ occurrence ∈ life, occurrence.Short) :
    (s.live host life).Contained := by
  induction life generalizing s with
  | nil => exact contained
  | cons occurrence life inductionHypothesis =>
    obtain ⟨first, later⟩ := List.forall_mem_cons.mp short
    exact inductionHypothesis (contained.undergo host occurrence first) later

end Session

end Courier
