import DebugAdapter.Debuggee.Supervisor
import DebugAdapter.Proofs.Debuggee.Lines
import Mathlib.Data.List.Induction
import Mathlib.Data.List.TakeWhile

namespace DebugAdapter.Debuggee

/-- The exit was not seen yet. -/
def Stage.Running : Stage → Prop
  | .watching | .stopping _ | .killing => True
  | .drainingOutput .. | .drainingErrors .. | .finished => False

/-- A stage fits what was seen of the exit, and when that was seen first. -/
def Stage.Fits (seen : Option (Nat × ExitInfo)) : Stage → Prop
  | .watching | .stopping _ | .killing => seen = none
  | .drainingOutput info deadline => ∃ now, seen = some (now, info) ∧ deadline = now + drainTimeout
  | .drainingErrors info _ => ∃ now, seen = some (now, info)
  | .finished => seen.isSome

section Stages

variable {seen : Option (Nat × ExitInfo)} {stage : Stage}

theorem Stage.Running.fits_iff (hr : stage.Running) : stage.Fits seen ↔ seen = none := by
  cases stage with
  | watching | stopping | killing => exact Iff.rfl
  | drainingOutput | drainingErrors | finished => exact hr.elim

theorem Stage.Running.unfinished (hr : stage.Running) : stage ≠ .finished := by
  rintro rfl
  exact hr

theorem Stage.Fits.isSome (hf : stage.Fits seen) (hr : ¬ stage.Running) : seen.isSome := by
  cases stage with
  | watching | stopping | killing => exact absurd trivial hr
  | drainingOutput info deadline =>
    obtain ⟨now, hs, _⟩ := hf
    simp [hs]
  | drainingErrors info deadline =>
    obtain ⟨now, hs⟩ := hf
    simp [hs]
  | finished => exact hf

end Stages

namespace Supervisor

/-- What can happen to a supervisor: some output of the debuggee comes, one of its streams ends, it
is to be stopped, the supervisor is polled at some time, with how the debuggee has ended if it has,
or a reader that was asked to end comes to it. -/
inductive Move where
  | output (chunk : Bytes)
  | outputEnds
  | errorsEnd
  | stop
  | poll (now : Nat) (status : Option ExitInfo)
  | cancel

namespace Move

def chunk? : Move → Option Bytes
  | output chunk => some chunk
  | _ => none

def exit? : Move → Option (Nat × ExitInfo)
  | poll now (some info) => some (now, info)
  | _ => none

def time? : Move → Option Nat
  | poll now _ => some now
  | _ => none

end Move

def start (grace : Nat) : Supervisor :=
  { grace }

def step (s : Supervisor) : Move → Supervisor × List Report
  | .output chunk => s.read chunk
  | .outputEnds => s.endOutput
  | .errorsEnd => (s.endErrors, [])
  | .stop => (s.requestStop, [])
  | .poll now status =>
    match s.poll now status with
    | some (t, _, reports) => (t, reports)
    | none => (s, [])
  | .cancel => (s.cancel, [])

def after (s : Supervisor) (moves : List Move) : Supervisor :=
  moves.foldl (fun t move => (t.step move).1) s

/-- What happens, with the supervisor that each thing happens to. -/
def history : Supervisor → List Move → List (Supervisor × Move)
  | _, [] => []
  | s, move :: moves => (s, move) :: history (s.step move).1 moves

def told (hist : List (Supervisor × Move)) : List Report :=
  hist.flatMap fun h => (h.1.step h.2).2

/-- When a poll first showed the exit, and how the debuggee had ended. -/
def exitSeen? (moves : List Move) : Option (Nat × ExitInfo) :=
  moves.findSome? Move.exit?

/-- The output that is read: what comes while the reader has not ended. -/
def chunkRead? (h : Supervisor × Move) : Option Bytes :=
  if h.1.outputOpen then h.2.chunk? else none

def endRead (h : Supervisor × Move) : Bool :=
  match h.2 with
  | .outputEnds => h.1.outputOpen
  | _ => false

/-- What the output says that was read; the unended line at its end counts if the end was read. -/
def said (hist : List (Supervisor × Move)) : List Output :=
  let (outputs, d) := LineDecoder.receive {} (hist.filterMap chunkRead?)
  outputs ++ if hist.any endRead then d.finish.1 else []

def untilExit (hist : List (Supervisor × Move)) : List (Supervisor × Move) :=
  hist.takeWhile fun h => !h.1.hasExited

theorem post_eq (s : Supervisor) (outputs : List Output) :
    s.post outputs =
      ({ s with outputOpen := s.outputOpen && (s.listening || outputs.isEmpty) },
        if s.listening then outputs.map .ofOutput else []) := by
  obtain ⟨_, _, _, _, _, _, _, _, listening⟩ := s
  cases listening <;> simp [post]

/-- What a poll does. As long as the debuggee runs it may go on to stop it, or it sees the exit. Then
it waits for the reader of the output, goes on when that has ended or took too long, waits for the
other stream, and reports the exit. -/
inductive Polled (s : Supervisor) (now : Nat) : Option ExitInfo → Supervisor → List Report → Prop
  | watched (stage : Stage) : s.stage.Running → stage.Running → Polled s now none { s with stage } []
  | seen (info : ExitInfo) : s.stage.Running → Polled s now (some info) (s.drain now info) []
  | waited (status : Option ExitInfo) : ¬ s.stage.Running →
      (∀ info deadline, s.stage = .drainingOutput info deadline →
        s.outputOpen = true ∧ now < deadline) →
      (∀ info deadline, s.stage = .drainingErrors info deadline → now < deadline) →
      Polled s now status s []
  | left (status : Option ExitInfo) (info : ExitInfo) (deadline : Nat) :
      s.stage = .drainingOutput info deadline → s.outputOpen = false ∨ deadline ≤ now →
      Polled s now status
        { s with abandoned := s.outputOpen, stage := .drainingErrors info (now + drainTimeout) } []
  | ended (status : Option ExitInfo) (info : ExitInfo) (deadline : Nat) :
      s.stage = .drainingErrors info deadline →
      Polled s now status (s.finish info).1 (s.finish info).2

/-- The cases of a poll, of which every invariant below is a case analysis. -/
theorem step_polled (s : Supervisor) (now : Nat) (status : Option ExitInfo) :
    Polled s now status (s.step (.poll now status)).1 (s.step (.poll now status)).2 := by
  obtain ⟨grace, decoder, outputOpen, abandoned, errorsOpen, stage, stopRequested, hasExited,
    listening⟩ := s
  cases stage with
  | watching =>
    cases status with
    | some info => exact .seen info trivial
    | none => cases stopRequested <;> exact .watched _ trivial trivial
  | stopping deadline =>
    cases status with
    | some info => exact .seen info trivial
    | none =>
      by_cases hd : deadline ≤ now <;> simp only [step, poll, hd, if_true, if_false] <;>
        exact .watched _ trivial trivial
  | killing =>
    cases status with
    | some info => exact .seen info trivial
    | none => exact .watched .killing trivial trivial
  | drainingOutput info deadline =>
    by_cases hd : !outputOpen ∨ deadline ≤ now
    · simp only [step, poll, if_pos hd]
      exact .left status info deadline rfl (by simpa using hd)
    · simp only [step, poll, if_neg hd]
      refine .waited status id ?_ nofun
      rintro _ _ ⟨⟩
      simpa using hd
  | drainingErrors info deadline =>
    by_cases hd : !errorsOpen ∨ deadline ≤ now
    · simp only [step, poll, if_pos hd]
      exact .ended status info deadline rfl
    · simp only [step, poll, if_neg hd]
      refine .waited status id nofun ?_
      rintro _ _ ⟨⟩
      simpa using (not_or.mp hd).2
  | finished => exact .waited status id nofun nofun

section Histories

variable {hist : List (Supervisor × Move)} {h : Supervisor × Move}

theorem after_cons (s : Supervisor) (move : Move) (moves : List Move) :
    s.after (move :: moves) = (s.step move).1.after moves := rfl

theorem after_append (s : Supervisor) (first second : List Move) :
    s.after (first ++ second) = (s.after first).after second :=
  List.foldl_append

theorem after_snoc (s : Supervisor) (moves : List Move) (move : Move) :
    s.after (moves ++ [move]) = ((s.after moves).step move).1 := by
  simp [after]

theorem history_append (s : Supervisor) (first second : List Move) :
    s.history (first ++ second) = s.history first ++ (s.after first).history second := by
  induction first generalizing s with
  | nil => rfl
  | cons move first ih => exact congrArg ((s, move) :: ·) (ih (s.step move).1)

theorem history_moves (s : Supervisor) (moves : List Move) :
    (s.history moves).map Prod.snd = moves := by
  induction moves generalizing s with
  | nil => rfl
  | cons move moves ih => exact congrArg (move :: ·) (ih (s.step move).1)

theorem told_snoc : told (hist ++ [h]) = told hist ++ (h.1.step h.2).2 := by
  simp [told]

theorem exit_seen_snoc (moves : List Move) (move : Move) :
    exitSeen? (moves ++ [move]) = (exitSeen? moves).or move.exit? := by
  simp [exitSeen?, List.findSome?_append]

/-- A stream that was read to its end was said in full. -/
theorem said_whole (he : hist.any endRead = true) :
    said hist = readings (hist.filterMap chunkRead?).flatten := by
  have howed := LineDecoder.receive_owed {} (hist.filterMap chunkRead?) []
  rw [List.append_nil, ← LineDecoder.finish_owed] at howed
  simp only [said, he, if_true]
  exact howed.symm

/-- Of a stream that has not ended, what its chunks have given was said. -/
theorem said_unended (he : hist.any endRead = false) :
    said hist = (LineDecoder.receive {} (hist.filterMap chunkRead?)).1 := by
  simp [said, he]

/-- What is said is what the lines say that were read, or the beginning of that. -/
theorem said_within (hist : List (Supervisor × Move)) :
    said hist <+: readings (hist.filterMap chunkRead?).flatten := by
  cases he : hist.any endRead with
  | true => exact (said_whole he) ▸ List.prefix_rfl
  | false =>
    have howed := LineDecoder.receive_owed {} (hist.filterMap chunkRead?) []
    rw [List.append_nil, ← said_unended he] at howed
    exact ⟨_, howed.symm⟩

/-- What is not read says nothing. -/
theorem said_unread (hc : chunkRead? h = none) (he : endRead h = false) :
    said (hist ++ [h]) = said hist := by
  have hend : (hist ++ [h]).any endRead = hist.any endRead := by simp [he]
  simp only [said, hend]
  simp [hc]

theorem said_chunk {chunk : Bytes} (he : hist.any endRead = false)
    (hm : h.2 = .output chunk) (ho : h.1.outputOpen = true) :
    said (hist ++ [h]) = said hist ++
      (((LineDecoder.receive {} (hist.filterMap chunkRead?)).2.feed chunk).drain).1 := by
  have hend : endRead h = false := by simp [endRead, hm]
  have hc : chunkRead? h = some chunk := by simp [chunkRead?, hm, ho, Move.chunk?]
  simp [said, hc, hend, he, LineDecoder.receive_snoc]

theorem said_end (he : hist.any endRead = false) (hm : h.2 = .outputEnds)
    (ho : h.1.outputOpen = true) :
    said (hist ++ [h]) = said hist ++
      (LineDecoder.receive {} (hist.filterMap chunkRead?)).2.finish.1 := by
  have hend : endRead h = true := by simp [endRead, hm, ho]
  have hc : chunkRead? h = none := by simp [chunkRead?, hm, Move.chunk?]
  simp [said, hc, hend, he]

end Histories

/-- What was reported: what was said up to the exit, the exit if it was, and what was said later. -/
def Reported (hist : List (Supervisor × Move)) (exits : List Report) : Prop :=
  ∃ late, said hist = said (untilExit hist) ++ late ∧
    told hist = (said (untilExit hist)).map .ofOutput ++ exits ++ late.map .ofOutput

/-- What the history of a supervisor says about it, and about what it has reported. -/
structure Followed (hist : List (Supervisor × Move)) (s : Supervisor) : Prop where
  listening : s.listening = true
  stage : s.stage.Fits (exitSeen? (hist.map Prod.snd))
  exited : s.hasExited = true ↔ s.stage = .finished
  whole : s.hasExited = false → untilExit hist = hist
  reading : s.outputOpen = true → hist.any endRead = false ∧
    s.decoder = (LineDecoder.receive {} (hist.filterMap chunkRead?)).2
  told : Reported hist
    (if s.hasExited then (exitSeen? (hist.map Prod.snd)).toList.map fun p => .exited p.2 else [])

structure Alike (s t : Supervisor) : Prop where
  listening : t.listening = s.listening
  stage : t.stage = s.stage
  exited : t.hasExited = s.hasExited

variable {hist : List (Supervisor × Move)} {s t : Supervisor} {move : Move}

theorem start_followed (grace : Nat) : Followed [] (start grace) :=
  ⟨rfl, rfl, by simp [start], fun _ => rfl, fun _ => ⟨rfl, rfl⟩, [], rfl, rfl⟩

theorem exit_seen_other {moves : List Move} (hx : move.exit? = none) :
    exitSeen? (moves ++ [move]) = exitSeen? moves := by
  rw [exit_seen_snoc, hx, Option.or_none]

theorem until_exit_append (hw : untilExit hist = hist) (more : List (Supervisor × Move)) :
    untilExit (hist ++ more) = hist ++ untilExit more :=
  List.takeWhile_append_of_pos (List.takeWhile_eq_self_iff.mp hw)

theorem until_exit_of_unexited (hw : untilExit hist = hist) (he : s.hasExited = false) :
    untilExit (hist ++ [(s, move)]) = hist ++ [(s, move)] := by
  rw [until_exit_append hw]
  simp [untilExit, he]

/-- Nothing is added to what lies before the exit once that was reported. -/
theorem until_exit_of_exited (hist : List (Supervisor × Move)) (he : s.hasExited = true) :
    untilExit (hist ++ [(s, move)]) = untilExit hist := by
  rw [untilExit, untilExit, List.takeWhile_append]
  split
  · rename_i hwhole
    rw [List.takeWhile_cons_of_neg (by simp [he]), List.append_nil]
    exact ((List.takeWhile_prefix _).eq_of_length hwhole).symm
  · rfl

/-- What is said when the exit is not reported goes behind what was said before, or behind the
exit. -/
theorem Reported.said {exits : List Report} {outputs : List Output} (hr : Reported hist exits)
    (hw : s.hasExited = false → untilExit hist = hist) (hnone : s.hasExited = false → exits = [])
    (hsaid : said (hist ++ [(s, move)]) = said hist ++ outputs)
    (hs : (s.step move).2 = outputs.map .ofOutput) : Reported (hist ++ [(s, move)]) exits := by
  obtain ⟨late, hlate, htold⟩ := hr
  cases he : s.hasExited with
  | false =>
    rw [hw he, List.self_eq_append_right] at hlate
    subst hlate
    refine ⟨[], ?_, ?_⟩
    · rw [until_exit_of_unexited (hw he) he, List.append_nil]
    · rw [told_snoc, htold, hs, until_exit_of_unexited (hw he) he, hsaid, hw he, hnone he]
      simp
  | true =>
    refine ⟨late ++ outputs, ?_, ?_⟩
    · rw [until_exit_of_exited hist he, hsaid, hlate, List.append_assoc]
    · rw [told_snoc, htold, hs, until_exit_of_exited hist he, List.map_append]
      simp

/-- What leaves the stage as it was reports what it reads, and nothing else. -/
theorem Followed.kept (hf : Followed hist s) {outputs : List Output}
    (hx : exitSeen? (hist.map Prod.snd ++ [move]) = exitSeen? (hist.map Prod.snd))
    (hsaid : said (hist ++ [(s, move)]) = said hist ++ outputs)
    (hs : s.step move = (t, outputs.map .ofOutput)) (halike : s.Alike t)
    (hr : t.outputOpen = true → (hist ++ [(s, move)]).any endRead = false ∧
      t.decoder = (LineDecoder.receive {} ((hist ++ [(s, move)]).filterMap chunkRead?)).2) :
    Followed (hist ++ [(s, move)]) t := by
  refine ⟨halike.listening ▸ hf.listening, ?_, ?_, ?_, hr, ?_⟩
  · simpa [hx, halike.stage] using hf.stage
  · rw [halike.exited, halike.stage]
    exact hf.exited
  · intro he
    rw [halike.exited] at he
    exact until_exit_of_unexited (hf.whole he) he
  · rw [List.map_append, List.map_singleton, hx, halike.exited]
    exact hf.told.said hf.whole (fun he => by simp [he]) hsaid (by rw [hs])

/-- What is not read leaves everything as it was. -/
theorem Followed.unread (hf : Followed hist s) (hc : chunkRead? (s, move) = none)
    (he : endRead (s, move) = false)
    (hx : exitSeen? (hist.map Prod.snd ++ [move]) = exitSeen? (hist.map Prod.snd))
    (hs : s.step move = (t, [])) (halike : s.Alike t)
    (ho : t.outputOpen = true → s.outputOpen = true) (hd : t.decoder = s.decoder) :
    Followed (hist ++ [(s, move)]) t := by
  have hsaid : said (hist ++ [(s, move)]) = said hist ++ [] := by
    rw [said_unread hc he, List.append_nil]
  refine hf.kept hx hsaid hs halike fun hopen => ?_
  simpa [hc, he, hd] using hf.reading (ho hopen)

theorem step_output (hl : s.listening = true) (ho : s.outputOpen = true) (chunk : Bytes) :
    s.step (.output chunk) = ({ s with decoder := (s.decoder.feed chunk).drain.2 },
      (s.decoder.feed chunk).drain.1.map .ofOutput) := by
  simp [step, Supervisor.read, ho, post_eq, hl]

theorem step_end (hl : s.listening = true) (ho : s.outputOpen = true) :
    s.step .outputEnds = ({ s with decoder := s.decoder.finish.2, outputOpen := false },
      s.decoder.finish.1.map .ofOutput) := by
  simp [step, endOutput, ho, post_eq, hl]

/-- Without a reader nothing is read. -/
theorem unread_of_closed (ho : s.outputOpen = false) (move : Move) :
    chunkRead? (s, move) = none ∧ endRead (s, move) = false := by
  constructor
  · simp [chunkRead?, ho]
  · cases move <;> simp [endRead, ho]

theorem output_followed (hf : Followed hist s) (chunk : Bytes) :
    Followed (hist ++ [(s, .output chunk)]) (s.step (.output chunk)).1 := by
  cases ho : s.outputOpen with
  | false =>
    have hs : s.step (.output chunk) = (s, []) := by simp [step, Supervisor.read, ho]
    rw [hs]
    obtain ⟨hc, he⟩ := unread_of_closed ho (.output chunk)
    exact hf.unread hc he (exit_seen_other rfl) hs ⟨rfl, rfl, rfl⟩ id rfl
  | true =>
    obtain ⟨hend, hdecoder⟩ := hf.reading ho
    have hs := step_output hf.listening ho chunk
    have hsaid := said_chunk (h := (s, .output chunk)) hend rfl ho
    rw [← hdecoder] at hsaid
    rw [hs]
    refine hf.kept (exit_seen_other rfl) hsaid hs ⟨rfl, rfl, rfl⟩ fun _ =>
      ⟨by simpa [endRead] using hend, ?_⟩
    simp [chunkRead?, Move.chunk?, ho, LineDecoder.receive_snoc, hdecoder]

theorem end_followed (hf : Followed hist s) :
    Followed (hist ++ [(s, .outputEnds)]) (s.step .outputEnds).1 := by
  cases ho : s.outputOpen with
  | false =>
    have hs : s.step .outputEnds = (s, []) := by simp [step, endOutput, ho]
    rw [hs]
    obtain ⟨hc, he⟩ := unread_of_closed ho .outputEnds
    exact hf.unread hc he (exit_seen_other rfl) hs ⟨rfl, rfl, rfl⟩ id rfl
  | true =>
    obtain ⟨hend, hdecoder⟩ := hf.reading ho
    have hs := step_end hf.listening ho
    have hsaid := said_end (h := (s, .outputEnds)) hend rfl ho
    rw [← hdecoder] at hsaid
    rw [hs]
    exact hf.kept (exit_seen_other rfl) hsaid hs ⟨rfl, rfl, rfl⟩ nofun

/-- A poll that goes on to another stage reports the exit if that is the last one, and reads
nothing. -/
theorem Followed.advance (hf : Followed hist s) {now : Nat} {status : Option ExitInfo}
    {reports : List Report} (hs : s.step (.poll now status) = (t, reports))
    (hl : t.listening = s.listening) (hd : t.decoder = s.decoder)
    (ho : t.outputOpen = s.outputOpen)
    (hst : t.stage.Fits (exitSeen? (hist.map Prod.snd ++ [.poll now status])))
    (hex : t.hasExited = true ↔ t.stage = .finished) (hnot : s.hasExited = false)
    (hr : reports = if t.hasExited then
      (exitSeen? (hist.map Prod.snd ++ [.poll now status])).toList.map fun p => .exited p.2
      else []) :
    Followed (hist ++ [(s, .poll now status)]) t := by
  have hunread : chunkRead? (s, .poll now status) = none := by simp [chunkRead?, Move.chunk?]
  have hend : endRead (s, .poll now status) = false := rfl
  have hwhole : untilExit (hist ++ [(s, .poll now status)]) = hist ++ [(s, .poll now status)] :=
    until_exit_of_unexited (hf.whole hnot) hnot
  refine ⟨hl ▸ hf.listening, by simpa using hst, hex, fun _ => hwhole, ?_, [], ?_, ?_⟩
  · intro hopen
    simpa [hunread, hend, hd] using hf.reading (ho ▸ hopen)
  · rw [hwhole, List.append_nil]
  · obtain ⟨late, hlate, htold⟩ := hf.told
    rw [hf.whole hnot, List.self_eq_append_right] at hlate
    subst hlate
    rw [told_snoc, hwhole, said_unread hunread hend, hs, htold, hf.whole hnot, hnot, hr]
    simp

/-- What a poll reports is the exit, where it leads to the end. -/
theorem Followed.polled (hf : Followed hist s) {now : Nat} {status : Option ExitInfo}
    {reports : List Report} (hp : Polled s now status t reports)
    (hs : s.step (.poll now status) = (t, reports)) :
    Followed (hist ++ [(s, .poll now status)]) t := by
  have hfits : s.stage.Fits (exitSeen? (hist.map Prod.snd)) := hf.stage
  have hunexited (hst : s.stage ≠ .finished) : s.hasExited = false := by
    by_contra he
    exact hst (hf.exited.mp (by simpa using he))
  cases hp with
  | watched stage hr hr' =>
    have hnot := hunexited hr.unfinished
    refine hf.advance hs rfl rfl rfl ?_ ?_ hnot (by simp [hnot])
    · rw [exit_seen_snoc, hr.fits_iff.mp hfits]
      exact hr'.fits_iff.mpr rfl
    · simp [hnot, hr'.unfinished]
  | seen info hr =>
    have hnot := hunexited hr.unfinished
    refine hf.advance hs rfl rfl rfl ?_ ?_ hnot ?_
    · rw [exit_seen_snoc, hr.fits_iff.mp hfits]
      exact ⟨now, rfl, rfl⟩
    · simp [drain, hnot]
    · simp [drain, hnot]
  | waited _ hr =>
    have hseen := hfits.isSome hr
    refine hf.unread (by simp [chunkRead?, Move.chunk?]) rfl ?_ hs ⟨rfl, rfl, rfl⟩ id rfl
    rw [exit_seen_snoc, Option.or_of_isSome hseen]
  | left _ info deadline hst =>
    have hnot := hunexited (by simp [hst])
    rw [hst] at hfits
    obtain ⟨seen, hseen, _⟩ := hfits
    refine hf.advance hs rfl rfl rfl ⟨seen, ?_⟩ ?_ hnot ?_
    · rw [exit_seen_snoc, hseen, Option.some_or]
    · simp [hnot]
    · simp [hnot]
  | ended _ info deadline hst =>
    have hnot := hunexited (by simp [hst])
    rw [hst] at hfits
    obtain ⟨seen, hseen⟩ := hfits
    have hsame : exitSeen? (hist.map Prod.snd ++ [.poll now status]) = some (seen, info) := by
      rw [exit_seen_snoc, hseen, Option.some_or]
    refine hf.advance hs rfl rfl rfl ?_ ?_ hnot ?_
    · simp [finish, Stage.Fits, hsame]
    · simp [finish]
    · simp [finish, hf.listening, hsame]

/-- Every move reports what the history has it report. -/
theorem step_followed (hf : Followed hist s) (move : Move) :
    Followed (hist ++ [(s, move)]) (s.step move).1 := by
  cases move with
  | output chunk => exact output_followed hf chunk
  | outputEnds => exact end_followed hf
  | errorsEnd | stop =>
    exact hf.unread (by simp [chunkRead?, Move.chunk?]) rfl (exit_seen_other rfl) rfl
      ⟨rfl, rfl, rfl⟩ id rfl
  | poll now status => exact hf.polled (s.step_polled now status) rfl
  | cancel =>
    have hopen (h : s.cancel.outputOpen = true) : s.outputOpen = true :=
      (Bool.and_eq_true_iff.mp h).1
    exact hf.unread (by simp [chunkRead?, Move.chunk?]) rfl (exit_seen_other rfl) rfl
      ⟨rfl, rfl, rfl⟩ hopen rfl

/-- What holds of the start and is kept by each step holds after any course: whatever happens and
whenever, each thing that was said is reported once, on one side of the exit. -/
theorem run_followed (grace : Nat) (moves : List Move) :
    Followed ((start grace).history moves) ((start grace).after moves) := by
  induction moves using List.reverseRecOn with
  | nil => exact start_followed grace
  | append_singleton moves move ih =>
    rw [history_append, after_snoc]
    exact step_followed ih move

end Supervisor
end DebugAdapter.Debuggee
