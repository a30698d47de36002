import DebugAdapter.Debuggee.Link

namespace DebugAdapter.Debuggee.Link

/-- Nothing is lost or doubled when a queue is written out. -/
theorem takeFrom_append (begun : Nat) (commands : List Command) (bytes : Nat) :
    (Queue.takeFrom begun commands bytes).1 ++ (Queue.takeFrom begun commands bytes).2.commands =
      commands := by
  induction commands generalizing begun bytes with
  | nil => rfl
  | cons c commands ih =>
    unfold Queue.takeFrom
    split
    · rfl
    · exact congrArg (c :: ·) (ih ..)

/-- A flush cuts the queue in two, and loses nothing of it. -/
theorem flush_append (q : Queue) (intake : Intake) :
    (q.flush intake).1 ++ (q.flush intake).2.commands = q.commands := by
  cases intake with
  | all => exact List.append_nil _
  | upTo bytes => exact takeFrom_append ..

/-- A sink that takes nothing leaves the queue as it was. -/
theorem flush_nothing (q : Queue) : q.flush (.upTo 0) = ([], q) := by
  obtain ⟨commands, begun⟩ := q
  cases commands <;> simp [Queue.flush, Queue.takeFrom]

/-- A command is written behind those still queued, or its number is lost, or there is no sink and
nothing happens. -/
theorem send_cases (l : Link) (accepts : Bool) (command : String) (arguments : Json) :
    (l.isAttached = true ∧ accepts = true ∧ ∃ queue, l.sink = some queue ∧
      l.send accepts command arguments = ⟨.ok l.nextSeq,
        queue.commands ++ [Command.make l.nextSeq command arguments],
        ⟨l.nextSeq + 1, some {}⟩⟩) ∨
    (l.isAttached = true ∧ accepts = false ∧ ∃ queue,
      l.send accepts command arguments = ⟨.error .brokenPipe, [], ⟨l.nextSeq + 1, some queue⟩⟩) ∨
    (l.isAttached = false ∧
      l.send accepts command arguments = ⟨.error .notAttached, [], l⟩) := by
  cases hs : l.sink with
  | none => right; right; simp [isAttached, send, transmit, hs]
  | some queue =>
    cases accepts with
    | true =>
      left
      refine ⟨by simp [isAttached, hs], rfl, queue, rfl, ?_⟩
      by_cases hq : queueBytes ≤ queue.size <;>
        simp [send, transmit, hs, hq, Intake.ofBool, Queue.flush, Queue.push]
    | false =>
      right; left
      refine ⟨by simp [isAttached, hs], rfl, ?_⟩
      by_cases hq : queueBytes ≤ queue.size
      · exact ⟨queue, by simp [send, transmit, hs, hq, Intake.ofBool, flush_nothing]⟩
      · exact ⟨queue.push (.make l.nextSeq command arguments),
          by simp [send, transmit, hs, hq, Intake.ofBool, flush_nothing]⟩

theorem send_number_le (l : Link) (accepts : Bool) (command : String) (arguments : Json) :
    l.nextSeq ≤ (l.send accepts command arguments).link.nextSeq := by
  rcases l.send_cases accepts command arguments with ⟨_, _, _, _, h⟩ | ⟨_, _, _, h⟩ | ⟨_, h⟩ <;>
    simp [h]

@[simp] theorem send_attached (l : Link) (accepts : Bool) (command : String) (arguments : Json) :
    (l.send accepts command arguments).link.isAttached = l.isAttached := by
  rcases l.send_cases accepts command arguments with
    ⟨ha, _, _, _, h⟩ | ⟨ha, _, _, h⟩ | ⟨_, h⟩
  · rw [h, ha]
    rfl
  · rw [h, ha]
    rfl
  · rw [h]

end DebugAdapter.Debuggee.Link
