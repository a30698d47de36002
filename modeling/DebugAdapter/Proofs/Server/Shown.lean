import DebugAdapter.Proofs.Server.Bridge

namespace DebugAdapter

open Frontend Debuggee Effect

def Server.Input.carries : Server.Input → Bool
  | .request _ => true
  | .report r => r.carries
  | .malformed | .broken | .ended _ => false

/-- A bridge without what it holds of the two streams, without what holds no request and no record,
and without the log. -/
structure Shown where
  session : Session
  stage : Server.Stage
  supervisor : Supervisor
  inputEnded : Bool
  reports : List Report
  handled : List Server.Input
  effects : List Effect

namespace Shown

def server (v : Shown) : Server :=
  { session := v.session, stage := v.stage }

def handle (env : Environment) (v : Shown) (input : Server.Input) : Shown :=
  let (server, effects) := v.server.handle env input
  { v with
    session := server.session
    stage := server.stage
    handled := if v.server.isServing && input.carries then v.handled ++ [input] else v.handled
    effects := v.effects ++ outward effects }

def takeReport (env : Environment) (v : Shown) : Shown :=
  match v.reports with
  | [] => v
  | r :: reports => { v with reports }.handle env (.report r)

def turn (env : Environment) (v : Shown) (move : Session.Move) : Shown :=
  let (session, effects) := v.session.step env move
  { v with session, effects := v.effects ++ outward effects }

def supervise (v : Shown) (move : Supervisor.Move) : Shown :=
  let (supervisor, reports) := v.supervisor.step move
  { v with
    supervisor := { supervisor with decoder := {} }
    reports := v.reports ++ reports.filter Report.carries }

def expire (v : Shown) (now : Nat) : Shown :=
  { v with stage := (v.server.expire now).stage }

/-- What becomes of what is shown. It does not tell what is in the streams. -/
def step (env : Environment) (v : Shown) : Bridge.Move → Shown
  | .arrive _ | .output _ | .outputEnds | .request => v
  | .inputEnds => { v with inputEnded := true }
  | .errorsEnd => v.supervise .errorsEnd
  | .stop => v.supervise .stop
  | .poll status => v.supervise (.poll env.now status)
  | .cancel => v.supervise .cancel
  | .report => v.takeReport env
  | .timer key generation => v.turn env (.timer key generation)
  | .handshake => v.turn env .handshake
  | .answer index => v.turn env (.answer index)
  | .expire => v.expire env.now

end Shown

namespace Server

variable {env : Environment} {input : Input}

/-- How an input is handled does not depend on the front end's stream. -/
theorem handle_eq (env : Environment) (s : Server) (input : Input) :
    let handled := ({ session := s.session, stage := s.stage } : Server).handle env input
    s.handle env input =
      ({ s with session := handled.1.session, stage := handled.1.stage }, handled.2) := by
  obtain ⟨session, decoder, space, outbox, stage⟩ := s
  cases stage <;> cases input with
  | report r => cases r <;> rfl
  | _ => rfl

theorem shutDown_stops (env : Environment) (s : Server) : ¬ (s.shutDown env).1.isServing := by
  rw [isServing_iff]
  simp only [shutDown]
  split <;> rintro ⟨⟩

/-- After something that ends the stream no further request is served. -/
theorem handle_serving {s : Server} (hs : (s.handle env input).1.isServing) :
    s.isServing ∧ input ≠ .broken ∧ ∀ clean, input ≠ .ended clean := by
  obtain ⟨session, decoder, space, outbox, stage⟩ := s
  cases stage with
  | serving =>
    refine ⟨rfl, ?_, ?_⟩
    · rintro rfl
      exact shutDown_stops env _ hs
    · rintro clean rfl
      exact shutDown_stops env _ hs
  | closing deadline =>
    cases input with
    | report r => cases r <;> cases hs
    | _ => cases hs
  | closed => cases input <;> cases hs

theorem expire_eq (s : Server) (now : Nat) :
    s.expire now =
      { s with stage := (expire { session := s.session, stage := s.stage } now).stage } := by
  obtain ⟨session, decoder, space, outbox, stage⟩ := s
  cases stage with
  | serving | closed => rfl
  | closing deadline => by_cases hd : deadline ≤ now <;> simp [expire, hd]

theorem expire_serving {s : Server} {now : Nat} (hs : (s.expire now).stage = .serving) :
    s.stage = .serving := by
  cases hstage : s.stage with
  | serving => rfl
  | closing deadline => by_cases hd : deadline ≤ now <;> simp_all [expire]
  | closed => simp_all [expire]

end Server

namespace Bridge

def shown (b : Bridge) : Shown where
  session := b.server.session
  stage := b.server.stage
  supervisor := { b.supervisor with decoder := {} }
  inputEnded := b.inputEnded
  reports := b.reports.filter Report.carries
  handled := b.handled.filter Server.Input.carries
  effects := outward b.effects

def held (b : Bridge) : Decoder :=
  b.server.decoder.feed b.unread

/-- What is shown of a bridge after an input depends on nothing that is not shown of it before. -/
theorem handle_shown (env : Environment) (b : Bridge) (input : Server.Input) :
    (b.handle env input).shown = b.shown.handle env input := by
  have h := Server.handle_eq env b.server input
  simp only [handle, shown, Shown.handle, h, Session.outward_append, Shown.server]
  congr 1
  cases hs : b.server.isServing <;> cases hc : input.carries <;>
    simp_all [Server.isServing]

theorem handle_held (env : Environment) (b : Bridge) (input : Server.Input) :
    (b.handle env input).held = b.held := by
  simp [held, handle, Server.handle_decoder]

theorem turn_shown (env : Environment) (b : Bridge) (move : Session.Move) :
    (b.turn env move).shown = b.shown.turn env move := by
  simp [turn, shown, Shown.turn]

end Bridge

namespace Shown

theorem handle_malformed (env : Environment) (v : Shown) : v.handle env .malformed = v := by
  obtain ⟨session, stage, supervisor, inputEnded, reports, handled, effects⟩ := v
  cases stage <;> simp [handle, server, Server.handle, Server.Input.carries, outward]

theorem handle_garbled (env : Environment) (v : Shown) (line : String) (reason : LineError) :
    v.handle env (.report (.malformed line reason)) = v := by
  obtain ⟨session, stage, supervisor, inputEnded, reports, handled, effects⟩ := v
  cases stage <;> simp [handle, server, Server.handle, Server.Input.carries, Report.carries,
    Session.handleReport]

theorem handle_ended (env : Environment) (v : Shown) (clean clean' : Bool) :
    v.handle env (.ended clean) = v.handle env (.ended clean') := by
  obtain ⟨session, stage, supervisor, inputEnded, reports, handled, effects⟩ := v
  cases stage <;> cases clean <;> cases clean' <;>
    simp [handle, server, Server.handle, Server.shutDown, Server.Input.carries]

theorem handle_serving {env : Environment} {v : Shown} {input : Server.Input}
    (hs : (v.handle env input).server.isServing) :
    v.server.isServing ∧ input ≠ .broken ∧ ∀ clean, input ≠ .ended clean :=
  Server.handle_serving (s := v.server) (by simpa [Server.isServing_iff, handle, server] using hs)

/-- A server that was shut down does not serve again. -/
theorem step_serving {env : Environment} {v : Shown} {move : Bridge.Move}
    (hs : (v.step env move).server.isServing) : v.server.isServing := by
  cases move with
  | report =>
    simp only [step, takeReport] at hs
    split at hs
    · exact hs
    · exact (handle_serving hs).1
  | expire =>
    rw [Server.isServing_iff] at hs ⊢
    exact Server.expire_serving hs
  | _ => exact hs

end Shown

namespace Bridge

variable {b c b' : Bridge} {env : Environment} {stream : Bytes} {move : Move}

theorem handle_told {r : Report} {reports : List Report} (hb : b.reports = r :: reports)
    (hr : r.carries) :
    ({ b with reports }.handle env (.report r)).shown = b.shown.takeReport env := by
  have hreports : b.shown.reports = r :: reports.filter Report.carries := by
    simp only [shown, hb, List.filter_cons_of_pos hr]
  rw [handle_shown, Shown.takeReport, hreports]
  rfl

theorem takeReport_shown (env : Environment) (reports : List Report) (b : Bridge)
    (hb : b.reports = reports) : (b.takeReport env reports).shown = b.shown.takeReport env := by
  induction reports generalizing b with
  | nil => simp [takeReport, Shown.takeReport, shown, hb]
  | cons r reports ih =>
    cases r with
    | malformed line reason =>
      have hskip : { b with reports }.shown = b.shown := by
        simp [shown, hb, Report.carries]
      rw [takeReport, ih _ rfl, handle_shown, Shown.handle_garbled, hskip]
    | record | exited => exact handle_told hb rfl

theorem takeReport_held (env : Environment) (reports : List Report) (b : Bridge) :
    (b.takeReport env reports).held = b.held := by
  induction reports generalizing b with
  | nil => rfl
  | cons r reports ih =>
    cases r with
    | malformed line reason =>
      rw [takeReport, ih, handle_held]
      rfl
    | record | exited => exact handle_held ..

/-- What is found when the session asks for a request. -/
inductive Fetched (b c : Bridge) : Option Server.Input → Prop
  | request (r : Request) : Decoder.Yields [r] b.held c.held → Fetched b c (some (.request r))
  | broken : requests b.held.drain.1 = [] → b.held.drain.2.1.isSome → Fetched b c (some .broken)
  | spent (clean : Bool) : requests b.held.drain.1 = [] → b.held.drain.2.1 = none →
      Decoder.Yields [] b.held c.held →
      Fetched b c (if b.inputEnded then some (.ended clean) else none)

theorem Fetched.of_yields {input? : Option Server.Input} (hy : Decoder.Yields [] b.held b'.held)
    (hended : b'.inputEnded = b.inputEnded) (h : Fetched b' c input?) : Fetched b c input? := by
  obtain ⟨hrequests, herror⟩ := hy.now
  rw [List.nil_append] at hrequests
  cases h with
  | request r hr => exact .request r (hy.trans hr)
  | broken hnone hsome => exact .broken (hrequests.trans hnone) (herror ▸ hsome)
  | spent clean hnone hend hrest =>
    rw [hended]
    exact .spent clean (hrequests.trans hnone) (herror.trans hend) (hy.trans hrest)

/-- Passing over a frame without a request leaves what is behind it. -/
theorem pass_yields (env : Environment) {body : String} {reason : Json.ReadError} {d : Decoder}
    (hi : b.server.decoder.next = .item (.malformed body reason) d) :
    let c := { b with server.decoder := d }.handle env .malformed
    Decoder.Yields [] b.held c.held ∧ c.shown = b.shown := by
  intro c
  constructor
  · rw [handle_held]
    exact (Decoder.item_yields hi).feed b.unread
  · rw [handle_shown, Shown.handle_malformed]
    rfl

/-- Reading takes nothing off what is held. -/
theorem read_yields (hs : b.server.isServing) (hn : b.server.nextInput? = none) :
    Decoder.Yields [] b.held b.read.held ∧ b.read.shown = b.shown := by
  have h := Server.sought hs
  rw [hn] at h
  cases h with
  | nothing d space hw hroom =>
    have harrive := Server.arrive_serving (s := { b.server with decoder := d, space }) hs
    constructor
    · rw [read, hroom, held, held, harrive, ← Decoder.feed_append, List.take_append_drop]
      exact (Decoder.wait_yields hw).feed b.unread
    · rw [read, hroom, harrive]
      rfl

theorem shown_serving (h : c.shown = b.shown) : c.server.isServing = b.server.isServing :=
  congrArg (·.server.isServing) h

theorem fetch_shown (env : Environment) (b : Bridge) : (b.fetch env).2.shown = b.shown := by
  fun_induction fetch env b with
  | case1 b hserving server hn ih =>
    have h := Server.sought hserving
    rw [hn] at h
    cases h with
    | malformed body reason d hi => exact ih.trans (pass_yields env hi).2
  | case2 b hserving input server hne hn =>
    have h := Server.sought hserving
    rw [hn] at h
    cases h <;> rfl
  | case3 b hserving hn hu server =>
    have h := Server.sought hserving
    rw [hn] at h
    cases h with
    | nothing d space hw hroom =>
      have hserver : server = { b.server with decoder := d, space } := hroom
      rw [hserver]
      rfl
  | case4 b hserving hn hu ih => exact ih.trans (read_yields hserving hn).2
  | case5 => rfl

theorem fetch_supervisor (env : Environment) (b : Bridge) :
    (b.fetch env).2.supervisor = b.supervisor := by
  fun_induction fetch env b with
  | case1 _ _ _ _ ih | case4 _ _ _ _ ih => exact ih
  | case2 | case3 | case5 => rfl

theorem fetch_idle (hs : ¬ b.server.isServing) : b.fetch env = (none, b) := by
  rw [fetch, dif_neg hs]

/-- What is fetched is what the frames that arrived give. -/
theorem fetch_fetched (env : Environment) (b : Bridge) (hs : b.server.isServing)
    (hshort : b.held.ShortHeaders) : Fetched b (b.fetch env).2 (b.fetch env).1 := by
  fun_induction fetch env b with
  | case1 b hserving server hn ih =>
    have h := Server.sought hserving
    rw [hn] at h
    cases h with
    | malformed body reason d hi =>
      obtain ⟨hy, hshown⟩ := pass_yields env hi
      have hfetched := ih ((shown_serving hshown).trans hs) (hy.short hshort)
      exact hfetched.of_yields hy (congrArg Shown.inputEnded hshown)
  | case2 b hserving input server hne hn =>
    have h := Server.sought hserving
    rw [hn] at h
    cases h with
    | request r d hi => exact .request r ((Decoder.item_yields hi).feed b.unread)
    | malformed => exact absurd rfl hne
    | broken e d hf =>
      obtain ⟨hitems, herror⟩ := Decoder.drain_failed_feed
        (by rw [Decoder.drain_failed hf]) hshort
      refine .broken ?_ ?_
      · rw [held, hitems, Decoder.drain_failed hf]
        rfl
      · rw [held, herror]
        rfl
  | case3 b hserving hn hu server =>
    have h := Server.sought hserving
    rw [hn] at h
    cases h with
    | nothing d space hw hroom =>
      have hdrain : b.held.drain = ([], none, d) := by
        rw [held, List.isEmpty_iff.mp hu, Decoder.feed_nil, Decoder.drain_wait hw]
      have hserver : server = { b.server with decoder := d, space } := hroom
      rw [hserver]
      refine .spent _ ?_ ?_ ((Decoder.wait_yields hw).feed b.unread)
      · rw [hdrain]
        rfl
      · rw [hdrain]
  | case4 b hserving hn hu ih =>
    obtain ⟨hy, hshown⟩ := read_yields hserving hn
    have hfetched := ih ((shown_serving hshown).trans hs) (hy.short hshort)
    exact hfetched.of_yields hy (congrArg Shown.inputEnded hshown)
  | case5 b hserving => exact absurd hs hserving

/-- The records that the next pieces of output add. -/
def newRecords (stream : Bytes) (pieces : List Bytes) : List Record :=
  records ((LineDecoder.feed {} stream).drain.2.receive pieces).1

theorem records_grow (stream : Bytes) (pieces : List Bytes) :
    records (LineDecoder.feed {} (stream ++ pieces.flatten)).drain.1 =
      records (LineDecoder.feed {} stream).drain.1 ++ newRecords stream pieces := by
  rw [LineDecoder.feed_append, LineDecoder.receive_feed, records_append]
  rfl

theorem output_open (pieces : List Bytes) (hl : b.supervisor.listening = true)
    (ho : b.supervisor.outputOpen = true) :
    b.step env (.output pieces) = { b with
      supervisor.decoder := (b.supervisor.decoder.receive pieces).2
      reports := b.reports ++ (b.supervisor.decoder.receive pieces).1.map .ofOutput } := by
  induction pieces generalizing b with
  | nil => simp [step, LineDecoder.receive]
  | cons piece pieces ih =>
    have hfirst := Supervisor.step_output hl ho piece
    have hothers := ih (b := b.supervise (.output piece)) (by rw [supervise, hfirst]; exact hl)
      (by rw [supervise, hfirst]; exact ho)
    refine hothers.trans ?_
    simp [supervise, hfirst, LineDecoder.receive]

theorem output_closed (pieces : List Bytes) (ho : b.supervisor.outputOpen = false) :
    b.step env (.output pieces) = b := by
  induction pieces with
  | nil => rfl
  | cons piece pieces ih =>
    have hfirst : b.supervise (.output piece) = b := by
      simp [supervise, Supervisor.step, Supervisor.read, ho]
    rw [step, List.foldl_cons, hfirst]
    exact ih

/-- Output adds its records to the reports, and nothing else to what is shown. -/
theorem output_shown (env : Environment) (h : b.supervisor.Hears stream) (pieces : List Bytes) :
    (b.step env (.output pieces)).supervisor.Hears (stream ++ pieces.flatten) ∧
      (b.step env (.output pieces)).held = b.held ∧
      (b.step env (.output pieces)).shown = { b.shown with
        reports := b.shown.reports ++ if b.shown.supervisor.outputOpen then
          (newRecords stream pieces).map .record else [] } := by
  cases ho : b.supervisor.outputOpen with
  | false =>
    rw [output_closed pieces ho]
    refine ⟨⟨h.listening, fun hopen => ?_⟩, rfl, ?_⟩
    · cases ho.symm.trans hopen
    · simp [shown, ho]
  | true =>
    rw [output_open pieces h.listening ho, h.decoder ho]
    refine ⟨⟨h.listening, fun _ => ?_⟩, rfl, ?_⟩
    · rw [LineDecoder.feed_append, LineDecoder.receive_feed]
    · simp [shown, ho, reports_carried, newRecords]

/-- At the end of the output the records of what is left are reported. -/
theorem outputEnds_shown (env : Environment) (h : b.supervisor.Hears stream) :
    (b.step env .outputEnds).supervisor.Hears stream ∧
      (b.step env .outputEnds).held = b.held ∧
      (b.step env .outputEnds).shown = { b.shown with
        supervisor := { b.shown.supervisor with outputOpen := false }
        reports := b.shown.reports ++ if b.shown.supervisor.outputOpen then
          (records (LineDecoder.feed {} stream).drain.2.finish.1).map .record else [] } := by
  cases ho : b.supervisor.outputOpen with
  | false =>
    have hstep : b.step env .outputEnds = b := by
      simp [step, supervise, Supervisor.step, Supervisor.endOutput, ho]
    rw [hstep]
    refine ⟨h, rfl, ?_⟩
    simp [shown, ho]
  | true =>
    have hend := Supervisor.step_end h.listening ho
    refine ⟨⟨?_, ?_⟩, rfl, ?_⟩
    · simp [step, supervise, hend, h.listening]
    · simp [step, supervise, hend]
    · simp [step, supervise, hend, shown, ho, reports_carried, h.decoder ho]

def Move.isQuiet : Move → Bool
  | .arrive _ | .output _ | .outputEnds | .request => false
  | .inputEnds | .errorsEnd | .stop | .poll _ | .cancel | .report | .timer .. | .handshake
  | .answer _ | .expire => true

theorem supervise_quiet (m : Supervisor.Move) (ha : m.isApart) (b : Bridge) :
    (b.supervise m).shown = b.shown.supervise m ∧ (b.supervise m).held = b.held ∧
      (b.supervisor.Hears stream → (b.supervise m).supervisor.Hears stream) := by
  have hblank := Supervisor.step_apart ha b.supervisor {}
  refine ⟨?_, rfl, fun h => h.apart ha⟩
  simp [shown, supervise, Shown.supervise, hblank]

theorem takeReport_supervisor (env : Environment) (reports : List Report) (b : Bridge) :
    (b.takeReport env reports).supervisor = b.supervisor := by
  induction reports generalizing b with
  | nil => rfl
  | cons r reports ih =>
    cases r with
    | malformed line reason => exact ih _
    | record | exited => rfl

theorem step_quiet (hq : move.isQuiet) (env : Environment) (b : Bridge) :
    (b.step env move).shown = b.shown.step env move ∧ (b.step env move).held = b.held ∧
      (b.supervisor.Hears stream → (b.step env move).supervisor.Hears stream) := by
  cases move with
  | arrive | output | outputEnds | request => cases hq
  | inputEnds => exact ⟨rfl, rfl, id⟩
  | errorsEnd => exact supervise_quiet .errorsEnd rfl b
  | stop => exact supervise_quiet .stop rfl b
  | poll status => exact supervise_quiet (.poll env.now status) rfl b
  | cancel => exact supervise_quiet .cancel rfl b
  | report =>
    refine ⟨takeReport_shown env b.reports b rfl, takeReport_held env b.reports b, fun h => ?_⟩
    rw [step, takeReport_supervisor]
    exact h
  | timer | handshake | answer => exact ⟨turn_shown .., rfl, id⟩
  | expire =>
    have hexpire := Server.expire_eq b.server env.now
    simp only [step, hexpire]
    exact ⟨rfl, rfl, id⟩

end Bridge
end DebugAdapter
