import DebugAdapter.Proofs.Debuggee.Supervision

namespace DebugAdapter.Debuggee

/-- The reader of the output is waited for, now or later. -/
def Stage.Awaits : Stage → Prop
  | .watching | .stopping _ | .killing | .drainingOutput .. => True
  | .drainingErrors .. | .finished => False

theorem Stage.Running.awaits {stage : Stage} (hr : stage.Running) : stage.Awaits := by
  cases stage with
  | watching | stopping | killing | drainingOutput => trivial
  | drainingErrors | finished => exact hr.elim

/-- The output is no longer waited for, and the other stream not beyond this time. -/
def Stage.DoneBy (time : Nat) : Stage → Prop
  | .drainingErrors _ deadline => deadline ≤ time
  | .finished => True
  | _ => False

namespace Supervisor

variable {hist : List (Supervisor × Move)} {s t : Supervisor} {now : Nat}
  {status : Option ExitInfo} {reports : List Report}

section Moves

/-- Only a poll moves the supervisor on. -/
theorem step_stage {move : Move} (hm : move.time? = none) : (s.step move).1.stage = s.stage := by
  cases move with
  | poll => cases hm
  | output chunk =>
    simp only [step, read, post_eq]
    split <;> rfl
  | outputEnds =>
    simp only [step, endOutput, post_eq]
    split <;> rfl
  | errorsEnd | stop | cancel => rfl

/-- To read lets no reader begin again, and asks none to end. -/
theorem step_reader (s : Supervisor) (move : Move) (hm : move.time? = none) :
    ((s.step move).1.outputOpen = true → s.outputOpen = true) ∧
      (s.step move).1.abandoned = s.abandoned := by
  cases move with
  | poll => cases hm
  | output chunk =>
    simp only [step, read, post_eq]
    split
    · exact ⟨fun ho => (Bool.and_eq_true_iff.mp ho).1, rfl⟩
    · exact ⟨id, rfl⟩
  | outputEnds =>
    simp only [step, endOutput, post_eq]
    split
    · exact ⟨fun ho => absurd ho Bool.false_ne_true, rfl⟩
    · exact ⟨id, rfl⟩
  | errorsEnd | stop => exact ⟨id, rfl⟩
  | cancel => exact ⟨fun ho => (Bool.and_eq_true_iff.mp ho).1, rfl⟩

end Moves

section Reading

structure Reading (s : Supervisor) : Prop where
  opened : s.outputOpen = true
  wanted : s.abandoned = false
  awaited : s.stage.Awaits

/-- Only a reader that was asked to end is there behind its time. -/
def Awaited (s : Supervisor) : Prop :=
  s.outputOpen = true → s.abandoned = false → s.stage.Awaits

/-- No poll comes so late after the exit was seen that the reader is abandoned. -/
def InTime (moves : List Move) : Prop :=
  ∀ before now status later, moves = before ++ .poll now status :: later →
    ∀ seen info, exitSeen? before = some (seen, info) → now < seen + drainTimeout

theorem Polled.awaited (hp : Polled s now status t reports) (ha : s.Awaited) : t.Awaited := by
  cases hp with
  | watched stage _ hr => exact fun _ _ => hr.awaits
  | seen info => exact fun _ _ => trivial
  | waited => exact ha
  | left =>
    intro (ho : s.outputOpen = true) (hw : s.outputOpen = false)
    exact absurd ho (by simp [hw])
  | ended _ info deadline hst =>
    intro ho hw
    have hawaits := ha ho hw
    rw [hst] at hawaits
    exact hawaits.elim

theorem step_awaited (ha : s.Awaited) (move : Move) : (s.step move).1.Awaited := by
  cases hm : move.time? with
  | none =>
    obtain ⟨hopen, hwanted⟩ := s.step_reader move hm
    intro ho hw
    rw [step_stage hm]
    exact ha (hopen ho) (hwanted ▸ hw)
  | some now =>
    cases move with
    | poll now status => exact (s.step_polled now status).awaited ha
    | _ => cases hm

/-- A poll in time leaves the reader with the output until that has ended. -/
theorem Polled.keeps_reader (hp : Polled s now status t reports) (hf : Followed hist s)
    (hr : s.Reading) (htime : ∀ seen info, exitSeen? (hist.map Prod.snd) = some (seen, info) →
      now < seen + drainTimeout) : t.Reading := by
  have hfits : s.stage.Fits (exitSeen? (hist.map Prod.snd)) := hf.stage
  cases hp with
  | watched stage _ hstage => exact ⟨hr.opened, hr.wanted, hstage.awaits⟩
  | seen info => exact ⟨hr.opened, hr.wanted, trivial⟩
  | waited => exact hr
  | left _ info deadline hst hd =>
    rw [hst] at hfits
    obtain ⟨seen, hseen, rfl⟩ := hfits
    rcases hd with hd | hd
    · simp [hr.opened] at hd
    · exact absurd (htime seen info hseen) (Nat.not_lt.mpr hd)
  | ended _ info deadline hst =>
    have hawaits := hr.awaited
    rw [hst] at hawaits
    exact hawaits.elim

/-- Until the output ends all of it is read. -/
theorem all_read (grace : Nat) {moves : List Move} (hin : InTime moves)
    (hn : .outputEnds ∉ moves) :
    ((start grace).after moves).Reading ∧
      ((start grace).history moves).filterMap chunkRead? = moves.filterMap Move.chunk? := by
  induction moves using List.reverseRecOn with
  | nil => exact ⟨⟨rfl, rfl, trivial⟩, rfl⟩
  | append_singleton moves move ih =>
    rw [List.mem_append, not_or] at hn
    obtain ⟨hr, hread⟩ := ih (fun before now status later hs =>
      hin before now status (later ++ [move]) (by simp [hs])) hn.1
    have hf := run_followed grace moves
    rw [after_snoc, history_append]
    refine ⟨?_, ?_⟩
    · cases move with
      | output chunk =>
        rw [step_output hf.listening hr.opened]
        exact ⟨hr.opened, hr.wanted, hr.awaited⟩
      | outputEnds => simp at hn
      | errorsEnd | stop => exact ⟨hr.opened, hr.wanted, hr.awaited⟩
      | cancel =>
        refine ⟨?_, hr.wanted, hr.awaited⟩
        simp [step, cancel, hr.opened, hr.wanted]
      | poll now status =>
        refine ((start grace).after moves).step_polled now status |>.keeps_reader hf hr ?_
        rw [history_moves]
        exact hin moves now status [] rfl
    · have hlast : chunkRead? ((start grace).after moves, move) = move.chunk? := if_pos hr.opened
      rw [List.filterMap_append, hread, List.filterMap_append]
      simp [history, List.filterMap_cons, hlast]

theorem Polled.open_eq (hp : Polled s now status t reports) : t.outputOpen = s.outputOpen := by
  cases hp <;> rfl

theorem step_closed (ho : s.outputOpen = false) (move : Move) :
    (s.step move).1.outputOpen = false := by
  cases move with
  | output chunk => simp [step, read, ho]
  | outputEnds => simp [step, endOutput, ho]
  | errorsEnd | stop => exact ho
  | poll now status => exact (s.step_polled now status).open_eq.trans ho
  | cancel => simp [step, cancel, ho]

theorem history_closed (ho : s.outputOpen = false) (moves : List Move) :
    ∀ h ∈ s.history moves, h.1.outputOpen = false := by
  induction moves generalizing s with
  | nil => simp [history]
  | cons move moves ih => exact List.forall_mem_cons.mpr ⟨ho, ih (step_closed ho move)⟩

/-- What comes after the end of the output says nothing more. -/
theorem said_closed {more : List (Supervisor × Move)} (hc : ∀ h ∈ more, h.1.outputOpen = false) :
    said (hist ++ more) = said hist := by
  induction more using List.reverseRecOn with
  | nil => rw [List.append_nil]
  | append_singleton more h ih =>
    rw [List.forall_mem_append] at hc
    obtain ⟨hchunk, hend⟩ := unread_of_closed (hc.2 h (by simp)) h.2
    rw [← List.append_assoc, said_unread hchunk hend, ih hc.1]

/-- While the output is still being read no exit was reported. -/
theorem Reading.unexited (hr : s.Reading) (hf : Followed hist s) : s.hasExited = false := by
  by_contra he
  have hawaits := hr.awaited
  rw [hf.exited.mp (by simpa using he)] at hawaits
  exact hawaits

/-- Where the output ends in time, all of it is said before the exit is reported, and the unended
line at its end too. -/
theorem said_in_time (grace : Nat) {before later : List Move} (hn : .outputEnds ∉ before)
    (hin : InTime before) :
    let hist := (start grace).history (before ++ .outputEnds :: later)
    said hist = readings (before.filterMap Move.chunk?).flatten ∧
      said (untilExit hist) = said hist := by
  intro hist
  obtain ⟨hr, hread⟩ := all_read grace hin hn
  have hf := run_followed grace before
  generalize hs : (start grace).after before = s at hr hf
  set first := (start grace).history before ++ [(s, .outputEnds)] with hfirst
  set rest := (s.step .outputEnds).1.history later with hrest
  have hsplit : hist = first ++ rest := by
    simp only [hist, hfirst, history_append, List.append_assoc, hs]
    rfl
  have hclosed : ∀ h ∈ rest, h.1.outputOpen = false :=
    history_closed (by rw [step_end hf.listening hr.opened]) later
  have hsaid : said hist = said first := by rw [hsplit, said_closed hclosed]
  have huntil : untilExit hist = first ++ untilExit rest := by
    have hexit := hr.unexited hf
    rw [hsplit]
    exact until_exit_append (until_exit_of_unexited (hf.whole hexit) hexit) rest
  constructor
  · have hend : endRead (s, .outputEnds) = true := hr.opened
    rw [hsaid, said_whole (by simp [hfirst, hend]), hfirst, List.filterMap_append, hread]
    simp [chunkRead?, Move.chunk?]
  · rw [huntil, hsaid]
    exact said_closed fun h hh => hclosed h (List.takeWhile_subset _ hh)

/-- No reader that was asked to end is still there once the exit was reported. -/
def NoneLeft (hist : List (Supervisor × Move)) : Prop :=
  ∀ h ∈ hist, h.1.hasExited = true → h.1.abandoned = true → h.1.outputOpen = false

theorem run_awaited (grace : Nat) (moves : List Move) : ((start grace).after moves).Awaited := by
  induction moves using List.reverseRecOn with
  | nil => exact fun _ _ => trivial
  | append_singleton moves move ih =>
    rw [after_snoc]
    exact step_awaited ih move

/-- Where the reader has ended in time, by itself or because it was asked to, nothing is said after
the report of the exit. -/
theorem said_until_exit (grace : Nat) {moves : List Move}
    (hnone : NoneLeft ((start grace).history moves)) :
    said (untilExit ((start grace).history moves)) = said ((start grace).history moves) := by
  induction moves using List.reverseRecOn with
  | nil => rfl
  | append_singleton moves move ih =>
    have hf := run_followed grace moves
    rw [history_append] at hnone ⊢
    obtain ⟨hbefore, hlast⟩ := List.forall_mem_append.mp hnone
    change said (untilExit (_ ++ [((start grace).after moves, move)])) = _
    cases he : ((start grace).after moves).hasExited with
    | false =>
      rw [until_exit_of_unexited (hf.whole he) he]
      rfl
    | true =>
      have hclosed : ((start grace).after moves).outputOpen = false := by
        by_contra ho
        have hopen : ((start grace).after moves).outputOpen = true := by simpa using ho
        cases ha : ((start grace).after moves).abandoned with
        | true => exact ho (hlast _ List.mem_cons_self he ha)
        | false =>
          have hawaits := run_awaited grace moves hopen ha
          rw [hf.exited.mp he] at hawaits
          exact hawaits
      obtain ⟨hchunk, hend⟩ := unread_of_closed hclosed move
      rw [until_exit_of_exited _ he, ih hbefore]
      exact (said_unread hchunk hend).symm

end Reading

section Progress

theorem Polled.errors_due (hp : Polled s now status t reports) {info : ExitInfo} {deadline : Nat}
    (ht : t.stage = .drainingErrors info deadline) :
    s.stage = .drainingErrors info deadline ∨ deadline = now + drainTimeout := by
  cases hp with
  | watched stage _ hr =>
    obtain rfl : stage = _ := ht
    exact hr.elim
  | seen info => cases ht
  | waited => exact Or.inl ht
  | left _ info =>
    cases ht
    exact Or.inr rfl
  | ended _ info => cases ht

/-- The stream that is waited for last is not waited for longer than a drain timeout. -/
theorem errors_due (grace : Nat) {moves : List Move} {time : Nat}
    (ht : ∀ now ∈ moves.filterMap Move.time?, now ≤ time) {info : ExitInfo} {deadline : Nat}
    (hs : ((start grace).after moves).stage = .drainingErrors info deadline) :
    deadline ≤ time + drainTimeout := by
  induction moves using List.reverseRecOn with
  | nil => cases hs
  | append_singleton moves move ih =>
    rw [List.filterMap_append, List.forall_mem_append] at ht
    rw [after_snoc] at hs
    cases move with
    | poll now status =>
      rcases (((start grace).after moves).step_polled now status).errors_due hs with hold | rfl
      · exact ih ht.1 hold
      · exact Nat.add_le_add_right (ht.2 now (by simp [Move.time?])) _
    | _ =>
      rw [step_stage rfl] at hs
      exact ih ht.1 hs

/-- A drain timeout after the exit was seen the output is not waited for any more. -/
theorem Polled.done (hp : Polled s now status t reports) {seen : Nat} {info : ExitInfo}
    (hf : s.stage.Fits (some (seen, info))) (hlate : seen + drainTimeout ≤ now)
    (hdue : ∀ info deadline, s.stage = .drainingErrors info deadline →
      deadline ≤ now + drainTimeout) : t.stage.DoneBy (now + drainTimeout) := by
  cases hp with
  | watched _ hr | seen _ hr => simp [hr.fits_iff] at hf
  | waited _ hr hout =>
    cases hst : s.stage with
    | watching | stopping | killing => simp [hst, Stage.Running] at hr
    | drainingOutput info' deadline =>
      rw [hst] at hf
      obtain ⟨seen', hseen, rfl⟩ := hf
      cases hseen
      exact absurd (hout info _ hst).2 (Nat.not_lt.mpr hlate)
    | drainingErrors info' deadline => exact hdue info' deadline hst
    | finished => trivial
  | left => exact Nat.le_refl (now + drainTimeout)
  | ended => trivial

theorem Polled.keeps_done (hp : Polled s now status t reports) {time : Nat}
    (hd : s.stage.DoneBy time) :
    t.stage.DoneBy time ∧ (time ≤ now → t.stage = .finished) := by
  have hrunning (hr : s.stage.Running) : False := by
    cases hst : s.stage <;> simp_all [Stage.DoneBy, Stage.Running]
  cases hp with
  | watched _ hr | seen _ hr => exact (hrunning hr).elim
  | waited _ _ _ herr =>
    refine ⟨hd, fun hle => ?_⟩
    cases hst : s.stage with
    | drainingErrors info deadline =>
      rw [hst] at hd
      exact absurd (herr info deadline hst) (Nat.not_lt.mpr (Nat.le_trans hd hle))
    | finished => rfl
    | _ => simp [hst, Stage.DoneBy] at hd
  | left _ info deadline hst => simp [hst, Stage.DoneBy] at hd
  | ended => exact ⟨trivial, fun _ => rfl⟩

/-- A supervisor that has a time to be done by keeps to it. -/
theorem after_done {time : Nat} (hd : s.stage.DoneBy time) (moves : List Move) :
    (s.after moves).stage.DoneBy time := by
  induction moves generalizing s with
  | nil => exact hd
  | cons move moves ih =>
    refine ih ?_
    cases move with
    | poll now status => exact ((s.step_polled now status).keeps_done hd).1
    | _ => rwa [step_stage rfl]

/-- Once the exit was seen two polls more are enough to report it, the first a drain timeout or more
after that and the second as long after the first. -/
theorem exit_reported (grace : Nat) {before last : List Move} {seen u v : Nat} {info : ExitInfo}
    {status' : Option ExitInfo} (hseen : exitSeen? before = some (seen, info))
    (htimes : ∀ now ∈ before.filterMap Move.time?, now ≤ u) (hu : seen + drainTimeout ≤ u)
    (hv : u + drainTimeout ≤ v) :
    ((start grace).after (before ++ .poll u status :: (last ++ [.poll v status']))).hasExited =
      true := by
  have hf := run_followed grace before
  have hfits := hf.stage
  rw [history_moves, hseen] at hfits
  have hdone := (((start grace).after before).step_polled u status).done hfits hu
    fun _ _ => errors_due grace htimes
  have hdue := after_done hdone last
  have hend := (Polled.keeps_done (step_polled _ v status') hdue).2 hv
  refine (run_followed grace _).exited.mpr ?_
  rw [after_append, after_cons, after_snoc]
  exact hend

end Progress

/-- The exit is the last report exactly if no output is read behind it. -/
theorem exit_last_iff (before late : List Output) (info : ExitInfo) :
    (before.map Report.ofOutput ++ Report.exited info :: late.map .ofOutput).getLast? =
      some (.exited info) ↔ late = [] := by
  cases late using List.reverseRecOn with
  | nil => simp
  | append_singleton late output =>
    rw [List.map_append, List.map_singleton, ← List.cons_append, ← List.append_assoc,
      List.getLast?_concat]
    cases output <;> simp [Report.ofOutput]

/-- Whatever happens and whenever, what is reported is what the debuggee said, as far as that was
read, and its exit, once, as it was first seen. The supervisor says that the debuggee has exited
exactly if it has reported that. The exit is the last report exactly if nothing was said after it.
A reader that was asked to end and has not done so may do that; no other may, and none of them if the
output ends in time: then all of it is said before the exit, and the unended line at its end too.
Two drain timeouts after the exit was seen it is reported, if the supervisor is polled then. -/
theorem exit_last_unless_reader_left (grace : Nat) (moves : List Move) :
    let hist := (start grace).history moves
    let s := (start grace).after moves
    ((s.hasExited = false ∧ told hist = (said hist).map .ofOutput) ∨
      (s.hasExited = true ∧ ∃ seen info late, exitSeen? moves = some (seen, info) ∧
        said hist = said (untilExit hist) ++ late ∧
        told hist = (said (untilExit hist)).map .ofOutput ++ .exited info :: late.map .ofOutput ∧
        ((told hist).getLast? = some (.exited info) ↔ late = []))) ∧
    (NoneLeft hist → said (untilExit hist) = said hist) ∧
    said hist <+: readings (hist.filterMap chunkRead?).flatten ∧
    (∀ before later, moves = before ++ .outputEnds :: later → .outputEnds ∉ before →
      InTime before → said hist = readings (before.filterMap Move.chunk?).flatten ∧
        said (untilExit hist) = said hist) ∧
    (∀ before last seen info u v status status',
      moves = before ++ .poll u status :: (last ++ [.poll v status']) →
      exitSeen? before = some (seen, info) → (∀ now ∈ before.filterMap Move.time?, now ≤ u) →
      seen + drainTimeout ≤ u → u + drainTimeout ≤ v → s.hasExited = true) := by
  intro hist s
  refine ⟨?_, said_until_exit grace, said_within hist, ?_, ?_⟩
  · have hf := run_followed grace moves
    obtain ⟨late, hsaid, htold⟩ := hf.told
    cases he : s.hasExited with
    | false =>
      rw [hf.whole he, List.self_eq_append_right] at hsaid
      rw [if_neg (Bool.eq_false_iff.mp he), hf.whole he, hsaid] at htold
      exact Or.inl ⟨rfl, by simpa using htold⟩
    | true =>
      have hfits := hf.stage
      rw [history_moves, hf.exited.mp he] at hfits
      obtain ⟨⟨seen, info⟩, hseen⟩ := Option.isSome_iff_exists.mp hfits
      rw [if_pos he, history_moves, hseen] at htold
      have hreports : told hist = (said (untilExit hist)).map .ofOutput ++
          .exited info :: late.map .ofOutput := by simpa using htold
      refine Or.inr ⟨rfl, seen, info, late, hseen, hsaid, hreports, ?_⟩
      rw [hreports]
      exact exit_last_iff _ late info
  · rintro before later rfl hn hin
    exact said_in_time grace hn hin
  · rintro before last seen info u v status status' rfl hseen htimes hu hv
    exact exit_reported grace hseen htimes hu hv

/-- Two lines come in two chunks. The debuggee exits, and then its output ends without ending the
second line. Its other stream does not end at all. -/
def unended : List Move :=
  [.output [0x61], .output [0x0A, 0x62], .poll 100 (some { code := some 3 }), .outputEnds,
    .poll 1100 none, .poll 2100 none]

/-- A line that the debuggee left unended is reported before its exit, although no line feed ever
came. -/
theorem unended_line_reported :
    InTime (unended.take 3) ∧ ((start 2000).after unended).hasExited = true ∧
      told ((start 2000).history unended) =
        (readings [0x61, 0x0A, 0x62]).map .ofOutput ++ [.exited { code := some 3 }] := by
  obtain ⟨htold, _, _, hcomplete, hreported⟩ := exit_last_unless_reader_left 2000 unended
  have hin : InTime (unended.take 3) := by
    intro before now status later hs seen info hseen
    rcases before with _ | ⟨a, _ | ⟨b, _ | ⟨c, before⟩⟩⟩ <;> simp [unended] at hs
    obtain ⟨rfl, rfl, _⟩ := hs
    have hnone : exitSeen? [.output [0x61], .output [0x0A, 0x62]] = none := rfl
    rw [hnone] at hseen
    cases hseen
  obtain ⟨hsaid, hbefore⟩ :=
    hcomplete (unended.take 3) (unended.drop 4) rfl (by simp [unended]) hin
  have hexited := hreported (unended.take 4) [] 100 { code := some 3 } 1100 2100 none none rfl rfl
    (by simp [unended, Move.time?]) (by decide) (by decide)
  refine ⟨hin, hexited, ?_⟩
  rcases htold with ⟨hnot, _⟩ | ⟨_, seen, info, late, hseen, hlate, htold, _⟩
  · rw [hexited] at hnot
    cases hnot
  · have hfirst : exitSeen? unended = some (100, { code := some 3 }) := rfl
    cases hfirst.symm.trans hseen
    rw [hbefore, List.self_eq_append_right] at hlate
    rw [htold, hbefore, hsaid, hlate]
    rfl

/-- The debuggee exits, and its other stream ends. Something that it has started goes on to write to
its output, so that the reader is asked to end after a drain timeout. It is amid its reading then. -/
def flooded : List Move :=
  [.poll 0 (some { code := some 3 }), .errorsEnd, .poll 1000 none, .poll 1000 none,
    .output [0x61, 0x0A], .cancel]

/-- The exit is not the last report where the reader is still there. -/
theorem line_reported_after_exit :
    ((start 2000).after flooded).hasExited = true ∧
      told ((start 2000).history flooded) =
        .exited { code := some 3 } :: (readings [0x61, 0x0A]).map .ofOutput ∧
      (told ((start 2000).history flooded)).getLast? ≠ some (.exited { code := some 3 }) := by
  have htold : told ((start 2000).history flooded) =
      .exited { code := some 3 } :: (readings [0x61, 0x0A]).map .ofOutput := rfl
  have hsomething : readings [0x61, 0x0A] ≠ [] := by decide
  refine ⟨rfl, htold, fun hlast => hsomething ?_⟩
  rw [htold] at hlast
  exact (exit_last_iff [] _ _).mp hlast

end Supervisor
end DebugAdapter.Debuggee
