import DebugAdapter.Proofs.Debuggee.Link
import DebugAdapter.Proofs.Session.Course

namespace DebugAdapter.Session

open Frontend

/-- True if a request is a stack trace that gets through to the debuggee. -/
def defers (env : Environment) (s : Session) (r : Request) : Bool :=
  r.command = "stackTrace" && s.link.isAttached && env.accepts

variable (env : Environment) (s : Session)

@[simp] theorem enter_session (phase : Phase) : (s.enter phase).1 = { s with phase } := rfl

@[simp] theorem announce_session : s.announceEnd.1 = { s with endAnnounced := true } := by
  cases he : s.endAnnounced with
  | false => simp [announceEnd, he]
  | true =>
    cases s
    simp_all [announceEnd]

theorem send_session (command : String) (arguments : Json) :
    (s.send env command arguments).2.1 =
      { s with link := (s.link.send env.accepts command arguments).link } := rfl

@[simp] theorem forward_session (command : String) (arguments : Json) :
    (s.forward env command arguments).1 =
      { s with link := (s.link.send env.accepts command arguments).link } := rfl

/-- Only a session that was not launched gets something to launch. -/
theorem launchSpec_unlaunched {s : Session} {r : Request} {program : String}
    {spec : Debuggee.LaunchSpec}
    (hl : s.launchSpec r = .ok (program, spec)) : s.phase = .idle ∨ s.phase = .initializing := by
  unfold launchSpec at hl
  cases hp : s.phase with
  | idle => exact Or.inl rfl
  | initializing => exact Or.inr rfl
  | launching => simp [hp] at hl
  | running => simp [hp] at hl
  | terminating => simp [hp] at hl
  | terminated => simp [hp] at hl

/-- Where the start fails the session is left in the phase that it was in. -/
theorem launch_eq (r : Request) :
    s.launch env r =
      match s.launchSpec r with
      | .error e => (s, refuse r e)
      | .ok (program, spec) =>
        match env.spawn spec with
        | some failure => (s, moved :: .spawn spec false :: moved ::
            refuse r (.launch (.ofFailure spec.executable failure)))
        | none => ({ s with
              phase := .running
              link := s.link.attach
              hasProcess := true
              handshake := some (.starting program) },
            [moved, .spawn spec true, respond (.ok r none), moved]) := by
  cases hl : s.launchSpec r with
  | error e => simp only [launch, hl]
  | ok launched =>
    obtain ⟨program, spec⟩ := launched
    have hphase : s.phase ≠ .launching := by
      rcases launchSpec_unlaunched hl with hp | hp <;> simp [hp]
    cases hspawn : env.spawn spec <;> simp [launch, hl, hspawn, enter, hphase, hphase.symm]

/-- On the way to its end a session gives the debuggee up, whatever phase it was in. -/
theorem disconnect_session (r : Request) :
    (s.disconnect r).1 = { s.cutOff with phase := .terminated, endAnnounced := true } := by
  by_cases hp : s.phase = .terminated <;> simp [disconnect, hp, cutOff, releaseAll]

/-- Everything a request can lead to, by its command. -/
@[elab_as_elim] theorem obey_cases {motive : Outcome → Prop} (r : Request)
    (greet : r.command = "initialize" → motive (s.greet r))
    (launch : r.command = "launch" → motive (s.launch env r))
    (disconnect : r.command = "disconnect" ∨ r.command = "terminate" → motive (s.disconnect r))
    (breakpoints : r.command = "setBreakpoints" → motive (s.setBreakpoints env r))
    (plain : r.command ∈ plainCommands → motive ((s.forward env r.command (.record [])).1,
      (s.forward env r.command (.record [])).2 ++ [respond (.ok r none)]))
    (stackTrace : r.command = "stackTrace" → motive (s.stackTrace env r))
    (threads : r.command = "threads" → motive (s, [threads r]))
    (unsupported : r.command ∉ ["initialize", "launch", "disconnect", "terminate", "setBreakpoints",
      "stackTrace", "threads"] ++ plainCommands → motive (s, unsupported r)) :
    motive (s.obey env r) := by
  unfold obey
  by_cases h₁ : r.command = "initialize"
  · simpa only [if_pos h₁] using greet h₁
  by_cases h₂ : r.command = "launch"
  · simpa only [if_neg h₁, if_pos h₂] using launch h₂
  by_cases h₃ : r.command = "disconnect" ∨ r.command = "terminate"
  · simpa only [if_neg h₁, if_neg h₂, if_pos h₃] using disconnect h₃
  by_cases h₄ : r.command = "setBreakpoints"
  · simpa only [if_neg h₁, if_neg h₂, if_neg h₃, if_pos h₄] using breakpoints h₄
  by_cases h₅ : r.command ∈ plainCommands
  · simpa only [if_neg h₁, if_neg h₂, if_neg h₃, if_neg h₄, if_pos h₅] using plain h₅
  by_cases h₆ : r.command = "stackTrace"
  · simpa only [if_neg h₁, if_neg h₂, if_neg h₃, if_neg h₄, if_neg h₅, if_pos h₆]
      using stackTrace h₆
  by_cases h₇ : r.command = "threads"
  · simpa only [if_neg h₁, if_neg h₂, if_neg h₃, if_neg h₄, if_neg h₅, if_neg h₆, if_pos h₇]
      using threads h₇
  · simp only [if_neg h₁, if_neg h₂, if_neg h₃, if_neg h₄, if_neg h₅, if_neg h₆, if_neg h₇]
    apply unsupported
    simp_all

/-- A stack trace is deferred exactly if its command gets through, and then it is registered under
the number of that command. -/
theorem stackTrace_cases (r : Request) (hc : r.command = "stackTrace") :
    (s.defers env r = true ∧ ∃ queue, s.link.sink = some queue ∧ s.stackTrace env r =
      let (replaced, pending) := s.pending.register s.link.nextSeq "stackTrace" r.seq
        emptyStackTrace (env.now + s.config.stackTraceTimeout)
      ({ s with
          link := ⟨s.link.nextSeq + 1, some {}⟩
          pending
          released := s.released ++ replaced.toList },
        (queue.commands ++
          [Debuggee.Command.make s.link.nextSeq "stackTrace" (stackTraceArguments r)]).map
            .write)) ∨
    (s.defers env r = false ∧ ∃ link : Debuggee.Link, s.link.nextSeq ≤ link.nextSeq ∧
      s.stackTrace env r =
        ({ s with link }, [note .warning ["error"], respond (.ok r (some emptyStackTrace))])) := by
  have hle := s.link.send_number_le env.accepts "stackTrace" (stackTraceArguments r)
  rcases s.link.send_cases env.accepts "stackTrace" (stackTraceArguments r) with
    ⟨ha, hacc, queue, hs, hsend⟩ | ⟨_, hacc, queue, hsend⟩ | ⟨ha, hsend⟩
  · left
    refine ⟨by simp [defers, hc, ha, hacc], queue, hs, ?_⟩
    simp only [stackTrace, send, hsend]
  · right
    refine ⟨by simp [defers, hacc], _, hle, ?_⟩
    simp [stackTrace, send, hsend]
  · right
    refine ⟨by simp [defers, ha], _, hle, ?_⟩
    simp [stackTrace, send, hsend]

theorem obey_stackTrace (r : Request) (hc : r.command = "stackTrace") :
    s.obey env r = s.stackTrace env r := by
  simp [obey, hc, plainCommands]

theorem defers_command {r : Request} (hd : s.defers env r = true) : r.command = "stackTrace" := by
  simp only [defers, Bool.and_eq_true, decide_eq_true_eq] at hd
  exact hd.1.1

theorem obey_number_le (r : Request) :
    s.link.nextSeq ≤ (s.obey env r).1.link.nextSeq := by
  refine s.obey_cases env r ?greet ?launch ?disconnect ?breakpoints ?plain ?stackTrace ?threads
    ?unsupported
  case greet => by_cases hp : s.phase = .idle <;> simp [greet, hp]
  case launch =>
    rw [launch_eq]
    split
    · simp
    · split <;> simp [Debuggee.Link.attach]
  case disconnect => simp [disconnect_session, cutOff, releaseAll, Debuggee.Link.detach]
  case breakpoints =>
    simpa [setBreakpoints] using fun _ => s.link.send_number_le env.accepts _ _
  case plain => simpa using fun _ => s.link.send_number_le env.accepts _ _
  case stackTrace =>
    intro hc
    rcases s.stackTrace_cases env r hc with ⟨_, waiting, _, he⟩ | ⟨_, link, hle, he⟩
    · simp [he]
    · simpa [he] using hle
  case threads => simp
  case unsupported => simp

theorem report_number_le (report : Debuggee.Report) :
    s.link.nextSeq ≤ (s.handleReport report).1.link.nextSeq := by
  rcases report with (⟨name, body⟩ | reply) | ⟨line, reason⟩ | info
  · simp only [handleReport, handleEvent]
    split
    · simp
    · split
      · simp
      · split <;> simp
  · simp [handleReport, handleReply]
  · simp [handleReport]
  · simp [handleReport, handleExit, cutOff, releaseAll, Debuggee.Link.detach]

theorem handshake_number_le : s.link.nextSeq ≤ (s.stepHandshake env).1.link.nextSeq := by
  unfold stepHandshake
  split
  · simp
  · simp
  · have hle := s.link.send_number_le env.accepts "initialize" (.record [])
    have hsend := s.send_session env "initialize" (.record [])
    split
    · split <;> simp_all
    · simp
  · split
    · simpa using s.link.send_number_le env.accepts _ _
    · simp

theorem step_number_le (move : Move) :
    s.link.nextSeq ≤ (s.step env move).1.link.nextSeq := by
  cases move with
  | request r => exact s.obey_number_le env r
  | report report => exact s.report_number_le report
  | timer key generation => exact Nat.le_refl _
  | handshake => exact s.handshake_number_le env
  | answer index => cases hc : s.released[index]? <;> simp [step, answerReleased, hc]
  | shutDown => exact Nat.le_refl _

theorem deferred_number (r : Request) (hd : s.defers env r = true) :
    (s.step env (.request r)).1.link.nextSeq = s.link.nextSeq + 1 := by
  have hc := s.defers_command env hd
  rcases s.stackTrace_cases env r hc with ⟨_, waiting, _, he⟩ | ⟨hn, _⟩
  · simp [step, handleRequest, s.obey_stackTrace env r hc, he]
  · simp [hd] at hn

end DebugAdapter.Session
