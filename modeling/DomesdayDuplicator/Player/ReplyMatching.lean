import DomesdayDuplicator.Player.PlayerSession

/-!
# Replies and the commands they are to

As long as no byte of an earlier answer comes in between the discard of a call and its
return, what the call reads is what the player answered to its own command.
-/

namespace ReplyMatching

open Player Execution PlayerSession

/-- What comes in between the discard of a call and its return answers that call. -/
def InTime (l : Link) : Action → Prop
  | .arrive => ∀ byte rest, l.wire = byte :: rest →
    match l.phase with
    | .writing _ => False
    | .reading call _ _ => byte.call = call
    | _ => True
  | _ => True

/-- What a call has read, and what came in with it, begins the answer to its command. -/
structure Own (l : Link) (call : Nat) (into : List Sent) : Prop where
  last : call + 1 = l.calls
  mine : ∀ byte ∈ into ++ l.input, byte.call = call
  whole : chars ((into ++ l.input ++ l.wire).filter (·.call = call)) = (l.answers call).getD []

/-- The reply is read from the beginning of the player's answer to the call's command. -/
structure Matched (answers : Nat → Option Text) (e : Returned) (call : Nat) (answer : Text) :
    Prop where
  returned : e.call = some call
  answered : answers call = some answer
  mine : ∀ byte ∈ e.raw, byte.call = call
  begins : chars e.raw <+: answer
  enough : e.request.wanted ≤ countTerminators (chars e.raw)
  parsed : e.reply = e.request.parse (chars e.raw)

/-- A reply that says something about the command. -/
def Speaks (reply : SessionReply) : Prop := reply.status = .ok ∨ reply.status = .refused

structure Kept (l : Link) : Prop where
  fresh : ∀ byte ∈ l.input ++ l.wire, byte.call < l.calls
  asked : ∀ call ∈ l.asked, call < l.calls ∧ l.answers call = none
  once : l.asked.Nodup
  unasked : ∀ call, l.calls ≤ call → l.answers call = none
  writing : ∀ request, l.phase = .writing request → l.input = []
  reading : ∀ call request into, l.phase = .reading call request into → Own l call into
  matched : ∀ e ∈ l.returned, Speaks e.reply → ∃ call answer, Matched l.answers e call answer

theorem kept_start : Kept start where
  fresh := nofun
  asked := nofun
  once := List.nodup_nil
  unasked := fun _ _ => rfl
  writing := fun _ _ => rfl
  reading := nofun
  matched := nofun

section Steps

variable {l : Link}

theorem Own.of_eq {m : Link} {call : Nat} {into : List Sent} (h : Own l call into)
    (calls : m.calls = l.calls) (input : m.input = l.input) (wire : m.wire = l.wire)
    (answers : m.answers = l.answers) : Own m call into := by
  obtain ⟨last, mine, whole⟩ := h
  exact ⟨last.trans calls.symm, by rwa [input], by rwa [input, wire, answers]⟩

theorem Kept.reads (h : Kept l) {m : Link} (phase : m.phase = l.phase) (calls : m.calls = l.calls)
    (input : m.input = l.input) (wire : m.wire = l.wire) (answers : m.answers = l.answers) :
    ∀ call request into, m.phase = .reading call request into → Own m call into := by
  intro call request into there
  exact (h.reading call request into (phase.symm.trans there)).of_eq calls input wire answers

/-- A reply that says nothing about the command may come back at any time. -/
theorem Kept.returns (h : Kept l) {call : Option Nat} {request : Request} {raw : List Sent}
    {reply : SessionReply} (spoken : Speaks reply → ∃ k answer,
      Matched l.answers ⟨call, request, raw, reply⟩ k answer) :
    Kept (l.returns call request raw reply) := by
  refine ⟨h.fresh, h.asked, h.once, h.unasked, nofun, nofun, ?_⟩
  intro e member speaks
  rcases List.mem_append.mp member with earlier | this
  · exact h.matched e earlier speaks
  · obtain rfl := List.mem_singleton.mp this
    exact spoken speaks

theorem not_speaks_failure {status : ReplyStatus} (sent : Text) (other : status ≠ .ok)
    (refused : status ≠ .refused) : ¬ Speaks (failure status sent) := by
  rintro (ok | no)
  · exact other ok
  · exact refused no

theorem not_speaks_nothing (request : Request) : ¬ Speaks (request.parse []) := by
  rw [Request.parse]
  split
  · have nothing : parseAcknowledgement [] request.bytes = ⟨.noAnswer, [], [], request.bytes⟩ := rfl
    rw [nothing]
    rintro (ok | no)
    · cases ok
    · cases no
  · have nothing : parseText [] request.bytes = ⟨.noAnswer, [], [], request.bytes⟩ := rfl
    rw [nothing]
    rintro (ok | no)
    · cases ok
    · cases no

theorem Kept.disconnect (h : Kept l) : Kept { l with connected := false } :=
  ⟨h.fresh, h.asked, h.once, h.unasked, h.writing, h.reads rfl rfl rfl rfl rfl, h.matched⟩

theorem Kept.also (h : Kept l) {e : Returned} (silent : ¬ Speaks e.reply) :
    ∀ e' ∈ l.returned ++ [e], Speaks e'.reply → ∃ k answer, Matched l.answers e' k answer := by
  intro e' member speaks
  rcases List.mem_append.mp member with earlier | this
  · exact h.matched e' earlier speaks
  · obtain rfl := List.mem_singleton.mp this
    exact absurd speaks silent

theorem Kept.begin (h : Kept l) {request : Except ReplyStatus Request}
    (silent : ∀ status, request = .error status → status ≠ .ok ∧ status ≠ .refused) :
    Kept (l.begin request) := by
  unfold Link.begin
  split
  · split
    · split
      · exact ⟨h.fresh, h.asked, h.once, h.unasked, nofun, nofun, h.matched⟩
      · rename_i status
        obtain ⟨ok, refused⟩ := silent status rfl
        exact ⟨h.fresh, h.asked, h.once, h.unasked, h.writing, h.reads rfl rfl rfl rfl rfl,
          h.also (not_speaks_failure [] ok refused)⟩
    · exact ⟨h.fresh, h.asked, h.once, h.unasked, h.writing, h.reads rfl rfl rfl rfl rfl,
        h.also (not_speaks_failure [] (by decide) (by decide))⟩
  · exact h

/-- With the buffer empty, the command that is written is the one what comes next is about. -/
theorem Kept.write (h : Kept l) (works : Bool) : Kept (l.write works) := by
  rw [Link.write]
  split
  · rename_i request phase
    have empty := h.writing request phase
    split
    · refine ⟨?_, ?_, ?_, ?_, nofun, ?_, h.matched⟩
      · exact fun byte member => Nat.lt_succ_of_lt (h.fresh byte member)
      · intro call member
        rcases List.mem_append.mp member with earlier | this
        · obtain ⟨before, none⟩ := h.asked call earlier
          exact ⟨Nat.lt_succ_of_lt before, none⟩
        · obtain rfl := List.mem_singleton.mp this
          exact ⟨Nat.lt_succ_self _, h.unasked l.calls (Nat.le_refl _)⟩
      · refine List.nodup_append.mpr ⟨h.once, List.pairwise_singleton _ _, ?_⟩
        intro call earlier other this
        obtain rfl := List.mem_singleton.mp this
        exact Nat.ne_of_lt (h.asked call earlier).left
      · exact fun call later => h.unasked call (Nat.le_of_succ_le later)
      · rintro call request' into same
        obtain ⟨rfl, rfl, rfl⟩ := Phase.reading.inj same
        refine ⟨rfl, ?_, ?_⟩
        · rw [List.nil_append]
          intro byte member
          rw [empty] at member
          exact absurd member List.not_mem_nil
        · have none : (l.input ++ l.wire).filter (·.call = l.calls) = [] := by
            refine List.filter_eq_nil_iff.mpr fun byte member => ?_
            rw [decide_eq_true_eq]
            exact Nat.ne_of_lt (h.fresh byte member)
          rw [List.nil_append, none, h.unasked l.calls (Nat.le_refl _)]
          rfl
    · exact h.disconnect.returns fun speaks =>
        absurd speaks (not_speaks_failure _ (by decide) (by decide))
  · exact h

theorem filter_mine {call : Nat} {bytes : List Sent} (mine : ∀ byte ∈ bytes, byte.call = call) :
    bytes.filter (·.call = call) = bytes :=
  List.filter_eq_self.mpr fun byte member => decide_eq_true (mine byte member)

/-- What a call has read begins the answer. -/
theorem Own.begins {call : Nat} {into : List Sent} (h : Own l call into) :
    chars (into ++ l.input) <+: (l.answers call).getD [] := by
  rw [← h.whole, List.filter_append, filter_mine h.mine]
  exact (List.prefix_append _ _).map Sent.char

theorem wanted_pos (request : Request) : 0 < request.wanted := by
  rw [Request.wanted]
  omega

theorem Kept.read (h : Kept l) (count : Nat) (works : Bool) : Kept (l.read count works) := by
  rw [Link.read]
  split
  · rename_i call request into phase
    have own := h.reading call request into phase
    have split : into ++ l.input = (into ++ l.input.take count) ++ l.input.drop count := by
      rw [List.append_assoc, List.take_append_drop]
    split
    · have moved : Kept { l with
          input := l.input.drop count
          phase := .reading call request (into ++ l.input.take count) } := by
        refine ⟨?_, h.asked, h.once, h.unasked, nofun, ?_, h.matched⟩
        · intro byte member
          refine h.fresh byte ?_
          rcases List.mem_append.mp member with there | wire
          · exact List.mem_append_left _ (List.mem_of_mem_drop there)
          · exact List.mem_append_right _ wire
        · rintro call' request' into' same
          obtain ⟨rfl, rfl, rfl⟩ := Phase.reading.inj same
          refine ⟨own.last, ?_, ?_⟩
          · dsimp only
            rw [← split]
            exact own.mine
          · dsimp only
            rw [← split]
            exact own.whole
      dsimp only
      split
      · rename_i enough
        refine moved.returns fun _ => ?_
        have mine : ∀ byte ∈ into ++ l.input.take count, byte.call = call := fun byte member =>
          own.mine byte (by rw [split]; exact List.mem_append_left _ member)
        have begins : chars (into ++ l.input.take count) <+: (l.answers call).getD [] := by
          refine List.IsPrefix.trans ?_ own.begins
          rw [split]
          exact (List.prefix_append _ _).map Sent.char
        cases answered : l.answers call with
        | none =>
          rw [answered] at begins
          have nothing := List.prefix_nil.mp begins
          rw [nothing] at enough
          exact absurd enough (Nat.not_le_of_lt (wanted_pos request))
        | some answer =>
          rw [answered] at begins
          exact ⟨call, answer, rfl, answered, mine, begins, enough, rfl⟩
      · exact moved
    · exact h.disconnect.returns fun speaks =>
        absurd speaks (not_speaks_failure _ (by decide) (by decide))
  · exact h

theorem Kept.timeOut (h : Kept l) : Kept l.timeOut := by
  rw [Link.timeOut]
  split
  · rename_i call request into phase
    exact h.returns fun speaks => absurd speaks (not_speaks_nothing request)
  · exact h

/-- The player's answer is of a call that had none. -/
theorem Kept.answer (h : Kept l) (text : Text) : Kept (l.answer text) := by
  rw [Link.answer]
  split
  · exact h
  rename_i call rest asked
  have first := h.asked call (asked ▸ List.mem_cons_self ..)
  have distinct := h.once
  rw [asked, List.nodup_cons] at distinct
  have other : ∀ k, k ≠ call → Function.update l.answers call (some text) k = l.answers k :=
    fun k apart => Function.update_of_ne apart _ _
  refine ⟨?_, ?_, distinct.right, ?_, h.writing, ?_, ?_⟩
  · intro byte member
    rcases List.mem_append.mp member with input | wire
    · exact h.fresh byte (List.mem_append_left _ input)
    · rcases List.mem_append.mp wire with earlier | new
      · exact h.fresh byte (List.mem_append_right _ earlier)
      · obtain ⟨c, -, rfl⟩ := List.mem_map.mp new
        exact first.left
  · intro k member
    have apart : k ≠ call := fun same => distinct.left (same ▸ member)
    dsimp only
    rw [other k apart]
    exact h.asked k (asked ▸ List.mem_cons_of_mem _ member)
  · intro k later
    dsimp only
    rw [other k (Nat.ne_of_gt (Nat.lt_of_lt_of_le first.left later))]
    exact h.unasked k later
  · intro k request into phase
    obtain ⟨last, mine, whole⟩ := h.reading k request into phase
    refine ⟨last, mine, ?_⟩
    dsimp only
    rw [← List.append_assoc, List.filter_append]
    refine (List.map_append ..).trans ?_
    rw [show List.map Sent.char ((into ++ l.input ++ l.wire).filter (·.call = k)) = _ from whole]
    by_cases same : call = k
    · subst same
      rw [filter_mine fun byte member => ?_, first.right, Function.update_self]
      · simp [Function.comp_def]
      · obtain ⟨c, -, rfl⟩ := List.mem_map.mp member
        rfl
    · have none : (text.map (Sent.mk call)).filter (·.call = k) = [] := by
        refine List.filter_eq_nil_iff.mpr fun byte member => ?_
        obtain ⟨c, -, rfl⟩ := List.mem_map.mp member
        simpa using same
      rw [none, other k (Ne.symm same)]
      exact List.append_nil _
  · intro e member speaks
    obtain ⟨k, answer, found⟩ := h.matched e member speaks
    have apart : k ≠ call := by
      rintro rfl
      exact absurd (first.right.symm.trans found.answered) nofun
    exact ⟨k, answer, found.returned, (other k apart).trans found.answered, found.mine, found.begins,
      found.enough, found.parsed⟩

/-- A byte that comes in is one of the call's, or comes where no call reads it. -/
theorem Kept.arrive (h : Kept l) (inTime : InTime l .arrive) : Kept l.arrive := by
  rw [Link.arrive]
  split
  · exact h
  rename_i byte rest wire
  have here := inTime byte rest wire
  have moved : l.input ++ [byte] ++ rest = l.input ++ l.wire := by
    rw [wire, List.append_assoc]
    rfl
  refine ⟨?_, h.asked, h.once, h.unasked, ?_, ?_, h.matched⟩
  · dsimp only
    rw [moved]
    exact h.fresh
  · intro request phase
    rw [show l.phase = .writing request from phase] at here
    exact here.elim
  · intro call request into phase
    rw [show l.phase = .reading call request into from phase] at here
    obtain ⟨last, mine, whole⟩ := h.reading call request into phase
    refine ⟨last, ?_, ?_⟩
    · intro b member
      rcases List.mem_append.mp member with old | new
      · exact mine b (List.mem_append_left _ old)
      · rcases List.mem_append.mp new with input | this
        · exact mine b (List.mem_append_right _ input)
        · obtain rfl := List.mem_singleton.mp this
          exact here
    · dsimp only
      rw [List.append_assoc, moved, ← List.append_assoc]
      exact whole

theorem encode_silent (spec : WireSpec) (argument : Option Int) :
    ∀ status, (match encodeCommand spec argument with
      | .error status => Except.error (statusForEncodeFailure status)
      | .ok bytes => .ok (⟨bytes, spec.response, 1⟩ : Request)) = .error status →
    status ≠ .ok ∧ status ≠ .refused := by
  intro status failed
  cases encoded : encodeCommand spec argument with
  | error problem =>
    rw [encoded] at failed
    obtain rfl := Except.error.inj failed
    cases problem <;> decide
  | ok bytes =>
    rw [encoded] at failed
    cases failed

theorem too_long_silent (bytes : Text) (request : Request) : ∀ status,
    (if bytes.length > kMaximumCommandLength then .error .invalidArgument else .ok request) =
      (.error status : Except ReplyStatus Request) → status ≠ .ok ∧ status ≠ .refused := by
  intro status failed
  split at failed
  · obtain rfl := Except.error.inj failed
    decide
  · cases failed

theorem Kept.step (h : Kept l) {specs : PlayerCommand → WireSpec} {a : Action} (inTime : InTime l a) :
    Kept (l.step specs a) := by
  cases a with
  | execute command argument => exact h.begin (encode_silent (specs command) argument)
  | sendRaw command response expectedReplies => exact h.begin (too_long_silent _ _)
  | discardBuffers =>
    simp only [Link.step]
    split
    · refine ⟨fun byte member => ?_, h.asked, h.once, h.unasked, fun _ _ => rfl, nofun, h.matched⟩
      exact h.fresh byte (List.mem_append_right _ member)
    · exact h
  | write works => exact h.write works
  | read count works => exact h.read count works
  | timeOut => exact h.timeOut
  | answer text => exact h.answer text
  | ignore =>
    exact ⟨h.fresh, fun call member => h.asked call (List.mem_of_mem_tail member),
      h.once.sublist (List.tail_sublist _), h.unasked, h.writing, h.reads rfl rfl rfl rfl rfl,
      h.matched⟩
  | arrive => exact h.arrive inTime

end Steps

/-- An answer of as many lines as were wanted is read to its end. -/
theorem whole_lines {raw answer : Text} {wanted : Nat} (begins : raw <+: answer)
    (enough : wanted ≤ countTerminators raw) (lines : countTerminators answer = wanted)
    (ended : answer.getLast? = some commandTerminator) : raw = answer := by
  obtain ⟨rest, rfl⟩ := begins
  rw [countTerminators, List.count_append] at lines
  rw [countTerminators] at enough
  rcases List.eq_nil_or_concat' rest with rfl | ⟨front, last, rfl⟩
  · exact (List.append_nil raw).symm
  · have none : (front ++ [last]).count commandTerminator = 0 := by omega
    rw [← List.append_assoc, List.getLast?_concat] at ended
    obtain rfl := Option.some.inj ended
    exact absurd (List.mem_append_right front (List.mem_singleton_self _))
      (List.count_eq_zero.mp none)

/-- In every run in time, each reply that speaks of a command is the beginning, and where it
has as many lines as were wanted the whole, of the player's answer to the command its call
sent. -/
theorem replies_matched {specs : PlayerCommand → WireSpec} {events : List Unit} {l : Link}
    (run : Run (machine specs) InTime start events l) : ∀ e ∈ l.returned, Speaks e.reply →
      ∃ call answer, Matched l.answers e call answer ∧
        (countTerminators answer = e.request.wanted →
          answer.getLast? = some commandTerminator → e.reply = e.request.parse answer) := by
  have kept : Kept l := run.invariant kept_start fun _ _ kept inTime => kept.step inTime
  intro e member speaks
  obtain ⟨call, answer, found⟩ := kept.matched e member speaks
  refine ⟨call, answer, found, fun lines ended => ?_⟩
  rw [found.parsed, whole_lines found.begins found.enough lines ended]

/-! ## Two runs -/

/-- `InTime` as a check on computed runs. -/
def inTime (l : Link) : Action → Bool
  | .arrive =>
    match l.wire, l.phase with
    | _, .writing _ => false
    | byte :: _, .reading call _ _ => byte.call == call
    | _, _ => true
  | _ => true

theorem inTime_sound (l : Link) (a : Action) (h : inTime l a = true) : InTime l a := by
  cases a with
  | arrive =>
    intro byte rest wire
    simp only [inTime, wire] at h
    cases phase : l.phase with
    | writing request =>
      rw [phase] at h
      cases h
    | reading call request into =>
      rw [phase] at h
      exact beq_iff_eq.mp h
    | _ => trivial
  | _ => trivial

def noSpecs : PlayerCommand → WireSpec := fun _ => ⟨[], [], .none, 0, .text⟩

/-- A query that is sent, and not answered in time. -/
def unanswered : List Action :=
  [.sendRaw ['?', 'P'] .text 1, .discardBuffers, .write true, .timeOut]

def asking : List Action := [.sendRaw ['?', 'X'] .text 1, .discardBuffers, .write true]

/-- The late answer is there before the next command, and is discarded. -/
def inGoodTime : List Action :=
  unanswered ++ [.answer ['P', '4', '\r']] ++ List.replicate 3 .arrive ++ asking ++
    [.answer ['1', '\r']] ++ List.replicate 2 .arrive ++ [.read 2 true]

theorem inGoodTime_matched : ((machine noSpecs).trace start inGoodTime).2.returned.length = 2 ∧
    ∀ e ∈ ((machine noSpecs).trace start inGoodTime).2.returned,
      Speaks e.reply → ∃ call answer,
        Matched ((machine noSpecs).trace start inGoodTime).2.answers e call answer ∧
          (countTerminators answer = e.request.wanted →
            answer.getLast? = some commandTerminator → e.reply = e.request.parse answer) :=
  ⟨by decide,
    replies_matched (Run.of_trace (machine noSpecs) inTime start inGoodTime (by decide) inTime_sound)⟩

/-- The late answer comes in after the next command's discard. -/
def tooLate : List Action :=
  unanswered ++ asking ++ [.answer ['P', '4', '\r']] ++ List.replicate 3 .arrive ++ [.read 3 true]

theorem late_answer_misread : ¬ ∀ (specs : PlayerCommand → WireSpec) (events : List Unit) (l : Link),
    Run (machine specs) Any start events l → ∀ e ∈ l.returned, Speaks e.reply →
      ∃ call answer, Matched l.answers e call answer := by
  intro claim
  have run := Run.of_trace (machine noSpecs) (fun _ _ => true) start tooLate (by decide)
    (fun _ _ _ => trivial)
  have returned : (((machine noSpecs).trace start tooLate).2.returned[1]?).map
      (fun e => (e.call, e.raw, e.reply)) =
      some (some 1, [⟨0, 'P'⟩, ⟨0, '4'⟩, ⟨0, '\r'⟩], ⟨.ok, ['P', '4'], [], ['?', 'X', '\r']⟩) := by
    decide +kernel
  obtain ⟨e, there, same⟩ := Option.map_eq_some_iff.mp returned
  obtain ⟨call, rest⟩ := Prod.mk.inj same
  obtain ⟨raw, reply⟩ := Prod.mk.inj rest
  obtain ⟨k, answer, found⟩ := claim noSpecs _ _ run e (List.mem_of_getElem? there)
    (Or.inl (by rw [reply]))
  have one : k = 1 := Option.some.inj (found.returned.symm.trans call)
  have zero : (0 : Nat) = k := found.mine ⟨0, 'P'⟩ (by rw [raw]; exact List.mem_cons_self ..)
  omega

end ReplyMatching
