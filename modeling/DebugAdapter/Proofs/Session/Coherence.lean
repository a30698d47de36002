import DebugAdapter.Proofs.Session.Desk

namespace DebugAdapter.Session

open Frontend

/-- The phase, the announced end, the process, the link to it, the pending stack traces and the
handshake agree. A session that the debuggee itself has ended may still have its link. -/
structure Coherent (s : Session) : Prop where
  settled : s.phase = .idle ∨ s.phase = .initializing ∨ s.phase = .running ∨ s.phase = .terminated
  announced : s.endAnnounced = true ↔ s.phase = .terminated
  pending : s.pending.entries ≠ [] → s.link.isAttached = true
  attached : s.link.isAttached = true → s.hasProcess = true
  running : s.phase = .running → s.link.isAttached = true
  unlaunched : s.phase = .idle ∨ s.phase = .initializing →
    s.hasProcess = false ∧ s.link.isAttached = false ∧ s.pending.entries = [] ∧ s.handshake = none

theorem start_coherent (config : Config) (roots : List String) :
    (start config roots).Coherent := by
  constructor <;> simp [start, Debuggee.Link.isAttached]

variable {s t : Session} (env : Environment)

/-- What touches neither the phase nor the link or the process keeps the parts together, if it does
not begin a handshake and only lets wait what was sent over the link. -/
theorem Coherent.keep (hs : s.Coherent) (hphase : t.phase = s.phase)
    (hend : t.endAnnounced = s.endAnnounced) (hprocess : t.hasProcess = s.hasProcess)
    (hlink : t.link.isAttached = s.link.isAttached)
    (hhandshake : s.handshake = none → t.handshake = none)
    (hpending : t.pending.entries ≠ [] → s.link.isAttached = true) : t.Coherent where
  settled := hphase ▸ hs.settled
  announced := by rw [hend, hphase, hs.announced]
  pending := fun hp => hlink ▸ hpending hp
  attached := by rw [hlink, hprocess]; exact hs.attached
  running := by rw [hphase, hlink]; exact hs.running
  unlaunched := by
    intro hp
    rw [hphase] at hp
    obtain ⟨hno, hdetached, _, hnone⟩ := hs.unlaunched hp
    refine ⟨hprocess ▸ hno, hlink ▸ hdetached, ?_, hhandshake hnone⟩
    by_contra hne
    simp [hpending hne] at hdetached

/-- What is sent to the debuggee changes at most the handshake that sends it. -/
theorem Coherent.sent (hs : s.Coherent) (command : String) (arguments : Json)
    (handshake : Option Handshake) (hhandshake : s.handshake = none → handshake = none) :
    { s with
      link := (s.link.send env.accepts command arguments).link
      handshake }.Coherent :=
  hs.keep rfl rfl rfl (s.link.send_attached ..) hhandshake hs.pending

/-- However a session comes to its end. -/
theorem coherent_of_ended (hphase : t.phase = .terminated) (hend : t.endAnnounced = true)
    (hpending : t.pending.entries ≠ [] → t.link.isAttached = true)
    (hattached : t.link.isAttached = true → t.hasProcess = true) : t.Coherent where
  settled := by simp [hphase]
  announced := by simp [hphase, hend]
  pending := hpending
  attached := hattached
  running := by simp [hphase]
  unlaunched := by simp [hphase]

theorem cutOff_detached (s : Session) :
    s.cutOff.link.isAttached = false ∧ s.cutOff.pending.entries = [] :=
  ⟨rfl, rfl⟩

/-- A disconnect ends, detaches and drains, which is coherent whatever was before. -/
theorem disconnect_coherent (s : Session) (r : Request) : (s.disconnect r).1.Coherent := by
  rw [disconnect_session]
  apply coherent_of_ended <;> simp [cutOff_detached]

theorem handleExit_coherent (s : Session) (info : Debuggee.ExitInfo) :
    (s.handleExit info).1.Coherent := by
  apply coherent_of_ended <;> simp [handleExit, cutOff_detached]

theorem greet_coherent (hs : s.Coherent) (r : Request) : (s.greet r).1.Coherent := by
  by_cases hp : s.phase = .idle
  · have hend : s.endAnnounced = false := by
      by_contra hannounced
      simp [hs.announced.mp (by simpa using hannounced)] at hp
    have hsession : (s.greet r).1 = { s with phase := .initializing } := by simp [greet, hp]
    have hunlaunched := hs.unlaunched (Or.inl hp)
    rw [hsession]
    constructor <;> simp [hend, hunlaunched]
  · have hsession : (s.greet r).1 = s := by simp [greet, hp]
    rwa [hsession]

theorem launch_coherent (hs : s.Coherent) (r : Request) : (s.launch env r).1.Coherent := by
  rw [launch_eq]
  cases hl : s.launchSpec r with
  | error e => exact hs
  | ok launched =>
    obtain ⟨program, spec⟩ := launched
    cases hspawn : env.spawn spec with
    | some failure =>
      simp only [hspawn]
      exact hs
    | none =>
      simp only [hspawn]
      have hend : s.endAnnounced = false := by
        by_contra hannounced
        have hterminated := hs.announced.mp (by simpa using hannounced)
        rcases launchSpec_unlaunched hl with hp | hp <;> simp [hterminated] at hp
      constructor <;> simp [hend, Debuggee.Link.attach, Debuggee.Link.isAttached]

theorem stackTrace_link (s : Session) (r : Request) :
    (s.stackTrace env r).1.link =
      (s.link.send env.accepts "stackTrace" (stackTraceArguments r)).link := by
  simp only [stackTrace, send]
  cases (s.link.send env.accepts "stackTrace" (stackTraceArguments r)).result <;> rfl

theorem stackTrace_coherent (hs : s.Coherent) (r : Request) (hc : r.command = "stackTrace")
    (hpending : (s.stackTrace env r).1.pending.entries ≠ [] → s.link.isAttached = true) :
    (s.stackTrace env r).1.Coherent := by
  have hlink : (s.stackTrace env r).1.link.isAttached = s.link.isAttached := by
    rw [stackTrace_link, Debuggee.Link.send_attached]
  rcases s.stackTrace_cases env r hc with ⟨_, waiting, _, he⟩ | ⟨_, link, _, he⟩
  · refine hs.keep ?_ ?_ ?_ hlink ?_ hpending <;> simp [he]
  · refine hs.keep ?_ ?_ ?_ hlink ?_ hpending <;> simp [he]

theorem obey_coherent (hs : s.Coherent) (r : Request)
    (hpending : (s.obey env r).1.pending.entries ≠ [] → s.link.isAttached = true) :
    (s.obey env r).1.Coherent := by
  revert hpending
  refine s.obey_cases env r ?greet ?launch ?disconnect ?breakpoints ?plain ?stackTrace ?threads
    ?unsupported
  case greet => exact fun _ _ => greet_coherent hs r
  case launch => exact fun _ _ => launch_coherent env hs r
  case disconnect => exact fun _ _ => s.disconnect_coherent r
  case breakpoints => exact fun _ _ => hs.sent env "setBreakpoints" _ s.handshake id
  case plain => exact fun _ _ => hs.sent env r.command _ s.handshake id
  case stackTrace => exact stackTrace_coherent env hs r
  case threads => exact fun _ _ => hs
  case unsupported => exact fun _ _ => hs

theorem handleEvent_coherent (hs : s.Coherent) (name : String) (body : Json) :
    (s.handleEvent name body).1.Coherent := by
  unfold handleEvent
  split
  · exact hs
  · split
    · apply coherent_of_ended
      · simp
      · simp
      · simpa using hs.pending
      · simpa using hs.attached
    · split <;> exact hs

theorem handshake_coherent (hs : s.Coherent) : (s.stepHandshake env).1.Coherent := by
  unfold stepHandshake
  split
  · exact hs
  · rename_i program hh
    exact hs.keep rfl rfl rfl rfl (by simp [hh]) hs.pending
  · rename_i program deadline hh
    split
    · simp only [send]
      cases (s.link.send env.accepts "initialize" (.record [])).result with
      | error e => exact hs.sent env "initialize" _ none (fun _ => rfl)
      | ok seq => exact hs.sent env "initialize" _ (some _) (by simp [hh])
    · exact hs
  · split
    · exact hs.sent env "launch" _ none (fun _ => rfl)
    · exact hs

/-- Only what is sent over an attached link comes to wait. -/
theorem step_pending (hk : s.pending.KeysUnique) (hs : s.Coherent) (move : Move)
    (hp : (s.step env move).1.pending.entries ≠ []) : s.link.isAttached = true := by
  obtain ⟨e, he⟩ := List.exists_mem_of_ne_nil _ hp
  rcases s.entry_origin env hk move he with hold | ⟨r, _, hd, _⟩
  · exact hs.pending (List.ne_nil_of_mem hold)
  · simp only [defers, Bool.and_eq_true] at hd
    exact hd.1.2

/-- Every move but the shutdown keeps the state coherent. -/
theorem step_coherent (hk : s.pending.KeysUnique) (hs : s.Coherent) (move : Move)
    (hm : move ≠ .shutDown) : (s.step env move).1.Coherent := by
  have hpending := step_pending env hk hs move
  cases move with
  | request r => exact obey_coherent env hs r hpending
  | report report =>
    rcases report with (⟨name, body⟩ | reply) | ⟨line, reason⟩ | info
    · have hheard : { s with heard := true }.Coherent := hs.keep rfl rfl rfl rfl id hs.pending
      exact handleEvent_coherent hheard name body
    · exact hs.keep rfl rfl rfl rfl id hpending
    · exact hs
    · exact s.handleExit_coherent info
  | timer key generation => exact hs.keep rfl rfl rfl rfl id hpending
  | handshake => exact handshake_coherent env hs
  | answer index =>
    cases hc : s.released[index]? with
    | none => simpa [step, answerReleased, hc] using hs
    | some c =>
      have hsession : (s.step env (.answer index)).1 =
          { s with released := s.released.eraseIdx index } := by simp [step, answerReleased, hc]
      rw [hsession]
      exact hs.keep rfl rfl rfl rfl id hs.pending
  | shutDown => exact absurd rfl hm

/-- Whatever happens to a session, in whatever order, its parts agree until it is shut down. -/
theorem coherent_before_shutdown (config : Config) (roots : List String) (course : Course)
    (hcourse : ∀ happened ∈ course, happened.2 ≠ .shutDown) :
    ((start config roots).after course).Coherent := by
  suffices h : ∀ s : Session, s.pending.KeysUnique → s.Coherent → (s.after course).Coherent from
    h _ Correlation.Table.empty_keys (start_coherent config roots)
  induction course with
  | nil => exact fun s _ hs => hs
  | cons happened course ih =>
    intro s hk hs
    obtain ⟨env, move⟩ := happened
    have hmove := hcourse (env, move) List.mem_cons_self
    exact ih (fun other hin => hcourse other (List.mem_cons_of_mem _ hin)) _
      (s.step_keys env hk move) (step_coherent env hk hs move hmove)

/-- The debuggee ends the session itself while a stack trace is pending, and keeps its link. -/
theorem ended_by_debuggee_coherent :
    let course := tracing ++ [(willing 700, .report (.record (.event "terminated" .null)))]
    let s := (start {} ["/w"]).after course
    (∀ happened ∈ course, happened.2 ≠ .shutDown) ∧ s.Coherent ∧ s.phase = .terminated ∧
      s.pending.entries ≠ [] := by
  intro course s
  have hcourse : ∀ happened ∈ course, happened.2 ≠ .shutDown := by simp [course, tracing]
  exact ⟨hcourse, coherent_before_shutdown {} ["/w"] course hcourse, rfl, List.cons_ne_nil _ _⟩

end DebugAdapter.Session
