import DebugAdapter.Proofs.Debuggee.LastReport

namespace DebugAdapter.Debuggee

namespace Supervisor

/-- What a poll sends to the debuggee's process, with the time. Nothing else sends anything. -/
def signals (h : Supervisor × Move) : List (Nat × Signal) :=
  match h.2 with
  | .poll now status =>
    match h.1.poll now status with
    | some (_, sent, _) => sent.map (now, ·)
    | none => []
  | _ => []

def signalled (hist : List (Supervisor × Move)) : List (Nat × Signal) :=
  hist.flatMap signals

def Move.asksToStop : Move → Bool
  | stop => true
  | _ => false

/-- The same course, but that it is asked for the stop only once. -/
def askedOnce : List Move → List Move
  | [] => []
  | .stop :: moves => .stop :: moves.filter (!·.asksToStop)
  | move :: moves => move :: askedOnce moves

/-- What a debuggee may be sent: nothing, or that it is to terminate, and a kill when the grace period
is over. -/
inductive Escalation (grace : Nat) : List (Nat × Signal) → Prop
  | spared : Escalation grace []
  | told (asked : Nat) : Escalation grace [(asked, .terminate)]
  | forced (asked now : Nat) : asked + grace ≤ now →
      Escalation grace [(asked, .terminate), (now, .kill)]

end Supervisor

def Stage.Sent (grace : Nat) (sent : List (Nat × Signal)) : Stage → Prop
  | .watching => sent = []
  | .stopping deadline => ∃ asked, sent = [(asked, .terminate)] ∧ deadline = asked + grace
  | .killing => ∃ asked now, sent = [(asked, .terminate), (now, .kill)] ∧ asked + grace ≤ now
  | .drainingOutput .. | .drainingErrors .. | .finished => Supervisor.Escalation grace sent

section Stages

variable {stage : Stage} {grace : Nat} {sent : List (Nat × Signal)}

theorem Stage.Sent.escalation (hs : stage.Sent grace sent) : Supervisor.Escalation grace sent := by
  cases stage with
  | watching =>
    obtain rfl : sent = [] := hs
    exact .spared
  | stopping deadline =>
    obtain ⟨asked, rfl, _⟩ := hs
    exact .told asked
  | killing =>
    obtain ⟨asked, now, rfl, hgrace⟩ := hs
    exact .forced asked now hgrace
  | drainingOutput | drainingErrors | finished => exact hs

theorem Stage.Sent.watching_iff (hs : stage.Sent grace sent) :
    stage = .watching ↔ stage.Running ∧ sent = [] := by
  cases stage with
  | watching => exact iff_of_true rfl ⟨trivial, hs⟩
  | stopping deadline =>
    obtain ⟨asked, rfl, _⟩ := hs
    simp
  | killing =>
    obtain ⟨asked, now, rfl, _⟩ := hs
    simp
  | drainingOutput | drainingErrors | finished => simp [Stage.Running]

theorem Stage.Sent.stopping_iff (hs : stage.Sent grace sent) (deadline : Nat) :
    stage = .stopping deadline ↔
      stage.Running ∧ ∃ asked, sent = [(asked, .terminate)] ∧ asked + grace = deadline := by
  cases stage with
  | watching =>
    obtain rfl : sent = [] := hs
    simp
  | stopping due =>
    obtain ⟨asked, rfl, rfl⟩ := hs
    simp [Stage.Running]
  | killing =>
    obtain ⟨asked, now, rfl, _⟩ := hs
    simp
  | drainingOutput | drainingErrors | finished => simp [Stage.Running]

end Stages

namespace Supervisor

variable {hist : List (Supervisor × Move)} {s : Supervisor} {grace now : Nat}
  {status : Option ExitInfo}

section Signals

theorem signalled_snoc (hist : List (Supervisor × Move)) (h : Supervisor × Move) :
    signalled (hist ++ [h]) = signalled hist ++ signals h := by
  simp [signalled]

/-- What a poll sends, and the stage that it leads to. As long as the exit was not seen the debuggee
is told to terminate if that is asked for, and killed when it was given its time. -/
inductive Sends (s : Supervisor) (now : Nat) : Option ExitInfo → Stage → List (Nat × Signal) → Prop
  | told : s.stage = .watching → s.stopRequested = true →
      Sends s now none (.stopping (now + s.grace)) [(now, .terminate)]
  | forced (deadline : Nat) : s.stage = .stopping deadline → deadline ≤ now →
      Sends s now none .killing [(now, .kill)]
  | waited : s.stage.Running → (s.stage = .watching → s.stopRequested = false) →
      (∀ deadline, s.stage = .stopping deadline → now < deadline) → Sends s now none s.stage []
  | spent (status : Option ExitInfo) (stage : Stage) : status.isSome ∨ ¬ s.stage.Running →
      ¬ stage.Running → Sends s now status stage []

/-- What a poll sends follows from the stage, the request to stop, the time and the exit alone. -/
theorem poll_sends (s : Supervisor) (now : Nat) (status : Option ExitInfo) :
    Sends s now status (s.step (.poll now status)).1.stage (signals (s, .poll now status)) := by
  obtain ⟨grace, decoder, outputOpen, abandoned, errorsOpen, stage, stopRequested, hasExited,
    listening⟩ := s
  cases stage with
  | watching =>
    cases status with
    | some info => exact .spent _ _ (Or.inl rfl) id
    | none =>
      cases stopRequested with
      | true => exact .told rfl rfl
      | false => exact .waited trivial (fun _ => rfl) (by rintro _ ⟨⟩)
  | stopping deadline =>
    cases status with
    | some info => exact .spent _ _ (Or.inl rfl) id
    | none =>
      by_cases hd : deadline ≤ now
      · simp only [step, signals, poll, hd, if_true]
        exact .forced deadline rfl hd
      · simp only [step, signals, poll, hd, if_false]
        refine .waited trivial (by rintro ⟨⟩) ?_
        rintro _ ⟨⟩
        exact Nat.lt_of_not_le hd
  | killing =>
    cases status with
    | some info => exact .spent _ _ (Or.inl rfl) id
    | none => exact .waited trivial (by rintro ⟨⟩) (by rintro _ ⟨⟩)
  | drainingOutput info deadline =>
    by_cases hd : !outputOpen ∨ deadline ≤ now
    · simp only [step, signals, poll, if_pos hd]
      exact .spent _ _ (Or.inr id) id
    · simp only [step, signals, poll, if_neg hd]
      exact .spent _ _ (Or.inr id) id
  | drainingErrors info deadline =>
    by_cases hd : !errorsOpen ∨ deadline ≤ now
    · simp only [step, signals, poll, if_pos hd]
      exact .spent _ _ (Or.inr id) id
    · simp only [step, signals, poll, if_neg hd]
      exact .spent _ _ (Or.inr id) id
  | finished => exact .spent _ _ (Or.inr id) id

/-- A poll sends one signal at most. -/
theorem signals_cases (s : Supervisor) (now : Nat) (status : Option ExitInfo) :
    signals (s, .poll now status) = [] ∨ signals (s, .poll now status) = [(now, .terminate)] ∨
      signals (s, .poll now status) = [(now, .kill)] := by
  have h := poll_sends s now status
  generalize signals (s, .poll now status) = new at h ⊢
  generalize (s.step (.poll now status)).1.stage = stage at h
  cases h with
  | told | forced => simp
  | waited | spent => exact Or.inl rfl

/-- The debuggee is told to terminate by the first poll behind the request, if it still runs. -/
theorem tells_iff : signals (s, .poll now status) = [(now, .terminate)] ↔
    s.stage = .watching ∧ s.stopRequested = true ∧ status = none := by
  have h := poll_sends s now status
  generalize signals (s, .poll now status) = sent at h
  generalize (s.step (.poll now status)).1.stage = stage at h
  cases h with
  | told hw hr => simp [hw, hr]
  | forced deadline hst => simp [hst]
  | waited _ hnot =>
    simp only [List.nil_eq, reduceCtorEq, false_iff, not_and]
    intro hw hr
    simp [hnot hw] at hr
  | spent _ _ hspent =>
    simp only [List.nil_eq, reduceCtorEq, false_iff, not_and]
    rintro hw _ rfl
    simp [hw, Stage.Running] at hspent

/-- The debuggee is killed by the first poll past the grace period, if it still runs. -/
theorem kills_iff : signals (s, .poll now status) = [(now, .kill)] ↔
    (∃ deadline, s.stage = .stopping deadline ∧ deadline ≤ now) ∧ status = none := by
  have h := poll_sends s now status
  generalize signals (s, .poll now status) = sent at h
  generalize (s.step (.poll now status)).1.stage = stage at h
  cases h with
  | told hw => simp [hw]
  | forced deadline hst hd => simp [hst, hd]
  | waited _ _ hnot =>
    simp only [List.nil_eq, reduceCtorEq, false_iff]
    rintro ⟨⟨deadline, hst, hd⟩, _⟩
    exact Nat.not_le.mpr (hnot deadline hst) hd
  | spent _ _ hspent =>
    simp only [List.nil_eq, reduceCtorEq, false_iff]
    rintro ⟨⟨deadline, hst, _⟩, rfl⟩
    simp [hst, Stage.Running] at hspent

end Signals

section Sent

/-- What the history of a supervisor says about its wish to stop the debuggee, and about what it has
sent. -/
structure Escalated (grace : Nat) (hist : List (Supervisor × Move)) (s : Supervisor) : Prop where
  patience : s.grace = grace
  asked : s.stopRequested = true ↔ .stop ∈ hist.map Prod.snd
  sent : s.stage.Sent grace (signalled hist)

theorem Polled.keeps {t : Supervisor} {reports : List Report}
    (hp : Polled s now status t reports) :
    t.grace = s.grace ∧ t.stopRequested = s.stopRequested := by
  cases hp <;> exact ⟨rfl, rfl⟩

/-- Only a request to stop is remembered as one. -/
theorem step_keeps (s : Supervisor) (move : Move) :
    (s.step move).1.grace = s.grace ∧
      (s.step move).1.stopRequested = (s.stopRequested || move.asksToStop) := by
  cases move with
  | output chunk =>
    simp only [step, read, post_eq, Move.asksToStop, Bool.or_false]
    split <;> exact ⟨rfl, rfl⟩
  | outputEnds =>
    simp only [step, endOutput, post_eq, Move.asksToStop, Bool.or_false]
    split <;> exact ⟨rfl, rfl⟩
  | errorsEnd | cancel => exact ⟨rfl, (Bool.or_false _).symm⟩
  | stop => exact ⟨rfl, (Bool.or_true _).symm⟩
  | poll now status =>
    have hnot : Move.asksToStop (.poll now status) = false := rfl
    rw [hnot, Bool.or_false]
    exact (s.step_polled now status).keeps

theorem asks_iff {move : Move} : move.asksToStop = true ↔ move = .stop := by
  cases move <;> simp [Move.asksToStop]

/-- What a poll sends fits the stage that it leads to. -/
theorem Sends.sent {stage : Stage} {new : List (Nat × Signal)} (h : Sends s now status stage new)
    {sent : List (Nat × Signal)} (hs : s.stage.Sent s.grace sent) :
    stage.Sent s.grace (sent ++ new) := by
  cases h with
  | told hw =>
    rw [hw] at hs
    obtain rfl : sent = [] := hs
    exact ⟨now, rfl, rfl⟩
  | forced deadline hst hd =>
    rw [hst] at hs
    obtain ⟨asked, rfl, rfl⟩ := hs
    exact ⟨asked, now, rfl, hd⟩
  | waited => simpa using hs
  | spent _ stage _ hspent =>
    rw [List.append_nil]
    cases stage with
    | watching | stopping | killing => exact absurd trivial hspent
    | drainingOutput | drainingErrors | finished => exact hs.escalation

theorem start_escalated (grace : Nat) : Escalated grace [] (start grace) :=
  ⟨rfl, by simp [start], rfl⟩

theorem step_escalated (he : Escalated grace hist s) (move : Move) :
    Escalated grace (hist ++ [(s, move)]) (s.step move).1 := by
  obtain ⟨hgrace, hasked⟩ := s.step_keeps move
  refine ⟨hgrace.trans he.patience, ?_, ?_⟩
  · rw [hasked, Bool.or_eq_true, he.asked, asks_iff, List.map_append, List.mem_append]
    simp [eq_comm]
  · rw [signalled_snoc]
    cases move with
    | poll now status =>
      have hsends := s.poll_sends now status
      have hsent := he.sent
      rw [← he.patience] at hsent ⊢
      exact hsends.sent hsent
    | _ =>
      rw [step_stage rfl]
      simpa [signals] using he.sent

/-- However long it is supervised, a debuggee is sent no more than the escalation. -/
theorem run_escalated (grace : Nat) (moves : List Move) :
    Escalated grace ((start grace).history moves) ((start grace).after moves) := by
  induction moves using List.reverseRecOn with
  | nil => exact start_escalated grace
  | append_singleton moves move ih =>
    rw [history_append, after_snoc]
    exact step_escalated ih move

end Sent

section Seen

variable {moves : List Move}

/-- The supervisor waits for the exit exactly as long as no poll has seen it. -/
theorem running_iff (grace : Nat) (moves : List Move) :
    ((start grace).after moves).stage.Running ↔ exitSeen? moves = none := by
  have hfits := (run_followed grace moves).stage
  rw [history_moves] at hfits
  constructor
  · intro hr
    exact hr.fits_iff.mp hfits
  · intro hnone
    by_contra hr
    have hseen := hfits.isSome hr
    simp [hnone] at hseen

theorem unseen_snoc (moves : List Move) (now : Nat) (status : Option ExitInfo) :
    exitSeen? (moves ++ [.poll now status]) = none ↔ exitSeen? moves = none ∧ status = none := by
  rw [exit_seen_snoc]
  cases exitSeen? moves <;> cases status <;> simp [Move.exit?]

end Seen

section Polls

variable (grace : Nat) (before : List Move) (now : Nat) (status : Option ExitInfo)

/-- It is told to terminate when that was asked for, if it was not told before and its exit was not
seen. -/
theorem told_to_terminate_iff :
    signals ((start grace).after before, .poll now status) = [(now, .terminate)] ↔
      exitSeen? (before ++ [.poll now status]) = none ∧ .stop ∈ before ∧
        signalled ((start grace).history before) = [] := by
  have he := run_escalated grace before
  have hasked := he.asked
  rw [history_moves] at hasked
  rw [tells_iff, he.sent.watching_iff, running_iff, hasked, unseen_snoc]
  tauto

/-- It is killed when its time is over, if its exit was not seen. -/
theorem killed_iff :
    signals ((start grace).after before, .poll now status) = [(now, .kill)] ↔
      exitSeen? (before ++ [.poll now status]) = none ∧
        ∃ asked, signalled ((start grace).history before) = [(asked, .terminate)] ∧
          asked + grace ≤ now := by
  have he := run_escalated grace before
  rw [kills_iff, unseen_snoc]
  simp only [he.sent.stopping_iff, running_iff]
  constructor
  · rintro ⟨⟨_, ⟨hnone, asked, hsent, rfl⟩, hd⟩, hstatus⟩
    exact ⟨⟨hnone, hstatus⟩, asked, hsent, hd⟩
  · rintro ⟨⟨hnone, hstatus⟩, asked, hsent, hd⟩
    exact ⟨⟨_, ⟨hnone, asked, hsent, rfl⟩, hd⟩, hstatus⟩

/-- Once the exit was seen nothing is sent. -/
theorem silent_of_seen (hseen : (exitSeen? before).isSome) (later : List Move) :
    signalled (((start grace).after before).history later) = [] := by
  induction later using List.reverseRecOn with
  | nil => rfl
  | append_singleton later move ih =>
    rw [history_append, history, history, signalled_snoc, ih, List.nil_append, ← after_append]
    cases move with
    | poll now status =>
      have hstill : exitSeen? (before ++ later ++ [.poll now status]) ≠ none := by
        intro hnone
        rw [unseen_snoc, exitSeen?, List.findSome?_append, Option.or_eq_none_iff] at hnone
        exact Option.isSome_iff_ne_none.mp hseen hnone.1.1
      rcases signals_cases ((start grace).after (before ++ later)) now status with hn | ht | hk
      · exact hn
      · exact absurd ((told_to_terminate_iff _ _ _ _).mp ht).1 hstill
      · exact absurd ((killed_iff _ _ _ _).mp hk).1 hstill
    | _ => rfl

end Polls

section Again

/-- Two courses come to the same: the same supervisor, and the same reports and signals on the way. -/
def SameFrom (s : Supervisor) (once moves : List Move) : Prop :=
  s.after once = s.after moves ∧ told (s.history once) = told (s.history moves) ∧
    signalled (s.history once) = signalled (s.history moves)

theorem SameFrom.cons {once moves : List Move} {move : Move}
    (h : SameFrom (s.step move).1 once moves) :
    SameFrom s (move :: once) (move :: moves) := by
  obtain ⟨hafter, htold, hsent⟩ := h
  refine ⟨hafter, ?_, ?_⟩
  · exact congrArg ((s.step move).2 ++ ·) htold
  · exact congrArg (signals (s, move) ++ ·) hsent

/-- To ask again changes nothing. -/
theorem step_again (hs : s.stopRequested = true) : s.step .stop = (s, []) := by
  simp [step, requestStop, ← hs]

/-- Once a stop was requested further requests change nothing. -/
theorem unasked_same (hs : s.stopRequested = true) (moves : List Move) :
    SameFrom s (moves.filter (!·.asksToStop)) moves := by
  induction moves generalizing s with
  | nil => exact ⟨rfl, rfl, rfl⟩
  | cons move moves ih =>
    have hstill : (s.step move).1.stopRequested = true := by
      rw [(s.step_keeps move).2, hs, Bool.true_or]
    cases hm : move.asksToStop with
    | false =>
      rw [List.filter_cons_of_pos (by simp [hm])]
      exact (ih hstill).cons
    | true =>
      obtain rfl := asks_iff.mp hm
      rw [List.filter_cons_of_neg (by simp [hm])]
      have hsame := ih hs
      rw [SameFrom, after_cons, history, step_again hs]
      simpa [SameFrom, told, signalled, signals, step_again hs] using hsame

theorem asked_once_same (s : Supervisor) (moves : List Move) :
    SameFrom s (askedOnce moves) moves := by
  induction moves generalizing s with
  | nil => exact ⟨rfl, rfl, rfl⟩
  | cons move moves ih =>
    cases move with
    | stop => exact (unasked_same (s := (s.step .stop).1) rfl moves).cons
    | _ => exact (ih _).cons

end Again

/-- Whatever the debuggee does, and however often and whenever its stop is asked for, it is sent
nothing but that it is to terminate, once at most, and a kill, once at most and only after that. It is
told to terminate by the first poll after the stop was asked for, if its exit was not seen by then,
and killed by the first poll at which the grace period is over, if its exit was not seen by then
either. Nothing is sent after its exit was seen. What is sent and reported is what it would be if the
stop had been asked for only the first time. -/
theorem told_once_then_forced (grace : Nat) (moves : List Move) :
    let hist := (start grace).history moves
    Escalation grace (signalled hist) ∧
    (∀ before now status later, moves = before ++ .poll now status :: later →
      let unseen := exitSeen? (before ++ [.poll now status]) = none
      let sent := signalled ((start grace).history before)
      let new := signals ((start grace).after before, .poll now status)
      (new = [] ∨ new = [(now, .terminate)] ∨ new = [(now, .kill)]) ∧
      (new = [(now, .terminate)] ↔ unseen ∧ .stop ∈ before ∧ sent = []) ∧
      (new = [(now, .kill)] ↔
        unseen ∧ ∃ asked, sent = [(asked, .terminate)] ∧ asked + grace ≤ now)) ∧
    (∀ before later, moves = before ++ later → (exitSeen? before).isSome →
      signalled hist = signalled ((start grace).history before)) ∧
    (start grace).SameFrom (askedOnce moves) moves := by
  intro hist
  refine ⟨(run_escalated grace moves).sent.escalation, ?_, ?_, asked_once_same _ moves⟩
  · intro before now status later _ unseen sent new
    exact ⟨signals_cases _ now status, told_to_terminate_iff grace before now status,
      killed_iff grace before now status⟩
  · rintro before later rfl hseen
    have hsilent := silent_of_seen grace before hseen later
    simp only [hist, history_append, signalled, List.flatMap_append] at hsilent ⊢
    rw [hsilent, List.append_nil]

/-- A debuggee that does not mind being told to terminate, and is to be stopped again and again. -/
def stubborn : List Move :=
  [.stop, .stop, .poll 10 none, .stop, .poll 2009 none, .poll 2010 none, .stop,
    .poll 2011 (some { signal := some 9 }), .stop, .outputEnds, .poll 2012 none, .errorsEnd,
    .poll 2013 none]

theorem stubborn_killed_once :
    exitSeen? (stubborn.take 8) = some (2011, { signal := some 9 }) ∧
      signals ((start 2000).after (stubborn.take 5), .poll 2010 none) = [(2010, .kill)] ∧
      signalled ((start 2000).history stubborn) = [(10, .terminate), (2010, .kill)] ∧
      told ((start 2000).history (askedOnce stubborn)) = [.exited { signal := some 9 }] := by
  obtain ⟨_, hpolls, hover, hsame⟩ := told_once_then_forced 2000 stubborn
  have hkilled := (hpolls (stubborn.take 5) 2010 none (stubborn.drop 6) rfl).2.2.mpr
    ⟨rfl, 10, rfl, by decide⟩
  have hsent := hover (stubborn.take 8) (stubborn.drop 8) rfl rfl
  exact ⟨rfl, hkilled, hsent, hsame.2.1⟩

end Supervisor
end DebugAdapter.Debuggee
