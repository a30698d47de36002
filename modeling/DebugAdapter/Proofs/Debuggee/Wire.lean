import DebugAdapter.Proofs.Debuggee.Link

namespace DebugAdapter.Debuggee

namespace Link

/-- What is done with a link, by whomever. A send that is given up midway counts as one whose sink
fails. -/
inductive Operation where
  | attach
  | detach
  | send (relief intake : Intake) (command : String) (arguments : Json)

def queued (l : Link) : List Command :=
  (l.sink.map Queue.commands).getD []

/-- An operation, and the link that it is done with. -/
structure Use where
  link : Link
  operation : Operation

namespace Use

def next (u : Use) : Link :=
  match u.operation with
  | .attach => u.link.attach
  | .detach => u.link.detach
  | .send relief intake command arguments =>
    (u.link.transmit relief intake command arguments).link

def written (u : Use) : List Command :=
  match u.operation with
  | .send relief intake command arguments =>
    (u.link.transmit relief intake command arguments).written
  | _ => []

def own? (u : Use) : Option Command :=
  match u.operation with
  | .send _ _ command arguments =>
    if u.link.isAttached then some (.make u.link.nextSeq command arguments) else none
  | _ => none

def failed (u : Use) : Bool :=
  match u.operation with
  | .send relief intake command arguments =>
    match (u.link.transmit relief intake command arguments).result with
    | .error .brokenPipe => true
    | _ => false
  | _ => false

end Use

def uses : Link → List Operation → List Use
  | _, [] => []
  | l, operation :: operations =>
    ⟨l, operation⟩ :: uses (Use.next ⟨l, operation⟩) operations

def after : Link → List Operation → Link
  | l, [] => l
  | l, operation :: operations => after (Use.next ⟨l, operation⟩) operations

/-- What reaches the sinks, one after the other. -/
def wire (l : Link) (operations : List Operation) : List Command :=
  (l.uses operations).flatMap Use.written

def numbered (l : Link) (operations : List Operation) : List Command :=
  (l.uses operations).filterMap Use.own?

/-- A full queue makes room first, or the command is dropped. Else the command is queued, and what is
queued is written out as far as the sink takes it. -/
theorem transmit_attached {l : Link} {queue : Queue} (hs : l.sink = some queue)
    (relief intake : Intake) (command : String) (arguments : Json) :
    ∃ relieved room, relieved ++ room.commands = queue.commands ∧
      (l.transmit relief intake command arguments =
        ⟨.error .brokenPipe, relieved, ⟨l.nextSeq + 1, some room⟩⟩ ∨
      l.transmit relief intake command arguments =
        let (written, rest) := (room.push (.make l.nextSeq command arguments)).flush intake
        ⟨if intake = .all then .ok l.nextSeq else .error .brokenPipe, relieved ++ written,
          ⟨l.nextSeq + 1, some rest⟩⟩) := by
  by_cases hfull : queueBytes ≤ queue.size
  · refine ⟨(queue.flush relief).1, (queue.flush relief).2, flush_append queue relief, ?_⟩
    by_cases hr : relief = .all
    · exact Or.inr (by simp [transmit, hs, hfull, hr])
    · exact Or.inl (by simp [transmit, hs, hfull, hr])
  · exact ⟨[], queue, rfl, Or.inr (by simp [transmit, hs, hfull])⟩

/-- A command finds no sink, or it is written behind all that is queued, or the sink fails: then it
is queued or dropped, and what was written and what is queued are still in order. -/
theorem transmit_cases (l : Link) (relief intake : Intake) (command : String) (arguments : Json) :
    let own := Command.make l.nextSeq command arguments
    let sending := l.transmit relief intake command arguments
    (l.isAttached = false ∧ sending = ⟨.error .notAttached, [], l⟩) ∨
    (l.isAttached = true ∧
      sending = ⟨.ok l.nextSeq, l.queued ++ [own], ⟨l.nextSeq + 1, some {}⟩⟩) ∨
    (l.isAttached = true ∧ ∃ written rest,
      sending = ⟨.error .brokenPipe, written, ⟨l.nextSeq + 1, some rest⟩⟩ ∧
        (written ++ rest.commands = l.queued ∨ written ++ rest.commands = l.queued ++ [own])) := by
  intro own sending
  cases hs : l.sink with
  | none =>
    left
    simp [isAttached, sending, transmit, hs]
  | some queue =>
    right
    have ha : l.isAttached = true := by simp [isAttached, hs]
    have hq : l.queued = queue.commands := by simp [queued, hs]
    obtain ⟨relieved, room, hroom, hdropped | hsent⟩ :=
      transmit_attached hs relief intake command arguments
    · right
      exact ⟨ha, relieved, room, hdropped, Or.inl (by rw [hroom, hq])⟩
    · cases intake with
      | all =>
        left
        refine ⟨ha, hsent.trans ?_⟩
        simp [Queue.flush, Queue.push, own, hq, ← hroom]
      | upTo bytes =>
        right
        refine ⟨ha, relieved ++ ((room.push own).flush (.upTo bytes)).1,
          ((room.push own).flush (.upTo bytes)).2, hsent, Or.inr ?_⟩
        rw [List.append_assoc, flush_append, hq, ← hroom]
        simp [Queue.push]

namespace Use

/-- What an operation writes and leaves queued was queued or is its own command, in this order. -/
theorem written_sublist (u : Use) :
    (u.written ++ u.next.queued).Sublist (u.link.queued ++ u.own?.toList) := by
  obtain ⟨l, operation⟩ := u
  cases operation with
  | attach | detach => exact List.nil_sublist _
  | send relief intake command arguments =>
    rcases l.transmit_cases relief intake command arguments with
      ⟨ha, h⟩ | ⟨ha, h⟩ | ⟨ha, taken, rest, h, hq⟩
    · simp [written, next, own?, h, ha]
    · simp [written, next, own?, h, ha, queued]
    · let u : Use := ⟨l, .send relief intake command arguments⟩
      have hleft : u.next.queued = rest.commands := by simp [u, next, h, queued]
      have hwritten : u.written = taken := by simp [u, written, h]
      rw [hleft, hwritten]
      rcases hq with hq | hq
      · rw [hq]
        exact List.sublist_append_left ..
      · rw [hq]
        simp [own?, ha]

theorem next_number (u : Use) : u.next.nextSeq = u.link.nextSeq + u.own?.toList.length := by
  obtain ⟨l, operation⟩ := u
  cases operation with
  | attach | detach => rfl
  | send relief intake command arguments =>
    rcases l.transmit_cases relief intake command arguments with
      ⟨ha, h⟩ | ⟨ha, h⟩ | ⟨ha, written, rest, h, _⟩ <;> simp [next, own?, h, ha]

theorem own_number (u : Use) {c : Command} (hc : u.own? = some c) : c.seq = u.link.nextSeq := by
  unfold own? at hc
  split at hc
  · split at hc
    · rw [← Option.some.inj hc]
      rfl
    · simp at hc
  · simp at hc

/-- Where nothing is queued and nothing fails an operation writes its own command alone. -/
theorem written_own (u : Use) (hq : u.link.queued = []) (hf : u.failed = false) :
    u.written = u.own?.toList ∧ u.next.queued = [] := by
  obtain ⟨l, operation⟩ := u
  cases operation with
  | attach | detach => exact ⟨rfl, rfl⟩
  | send relief intake command arguments =>
    rcases l.transmit_cases relief intake command arguments with
      ⟨ha, h⟩ | ⟨ha, h⟩ | ⟨ha, taken, rest, h, _⟩
    · exact ⟨by simp [written, own?, h, ha], by simpa [next, h] using hq⟩
    · have hq : l.queued = [] := hq
      exact ⟨by simp [written, own?, h, ha, hq], by simp [next, h, queued]⟩
    · simp [failed, h] at hf

/-- What stays queued was queued before or could not be written now. -/
theorem queued_origin (u : Use) {c : Command} (hc : c ∈ u.next.queued) :
    c ∈ u.link.queued ∨ u.own? = some c ∧ u.failed = true := by
  obtain ⟨l, operation⟩ := u
  cases operation with
  | attach | detach => simp [next, attach, detach, queued] at hc
  | send relief intake command arguments =>
    rcases l.transmit_cases relief intake command arguments with
      ⟨ha, h⟩ | ⟨ha, h⟩ | ⟨ha, taken, rest, h, hq⟩
    · left
      simpa [next, h] using hc
    · simp [next, h, queued] at hc
    · have hrest : c ∈ rest.commands := by simpa [next, h, queued] using hc
      have hc : c ∈ taken ++ rest.commands := List.mem_append_right _ hrest
      rcases hq with hq | hq
      · exact Or.inl (hq ▸ hc)
      · rw [hq, List.mem_append, List.mem_singleton] at hc
        exact hc.imp_right fun hown => ⟨by simp [own?, ha, hown], by simp [failed, h]⟩

end Use

section Runs

variable (l : Link) (operation : Operation) (operations : List Operation)

theorem after_cons : l.after (operation :: operations) =
    (Use.next ⟨l, operation⟩).after operations := rfl

theorem wire_cons : l.wire (operation :: operations) =
    Use.written ⟨l, operation⟩ ++ (Use.next ⟨l, operation⟩).wire operations := rfl

theorem numbered_cons : l.numbered (operation :: operations) =
    (Use.own? ⟨l, operation⟩).toList ++ (Use.next ⟨l, operation⟩).numbered operations := by
  rw [numbered, uses, List.filterMap_cons]
  cases Use.own? ⟨l, operation⟩ <;> rfl

/-- What is written and what is still queued are among the commands queued before and those numbered
since, in their order. -/
theorem wire_sublist : (l.wire operations ++ (l.after operations).queued).Sublist
    (l.queued ++ l.numbered operations) := by
  induction operations generalizing l with
  | nil => simp [wire, uses, after, numbered]
  | cons operation operations ih =>
    -- What the first operation leaves queued is what the others start with.
    let u : Use := ⟨l, operation⟩
    have hfirst : (u.written ++ u.next.queued ++ u.next.numbered operations).Sublist
        (l.queued ++ u.own?.toList ++ u.next.numbered operations) :=
      u.written_sublist.append_right _
    have hrest : (u.written ++ (u.next.wire operations ++ (u.next.after operations).queued)).Sublist
        (u.written ++ (u.next.queued ++ u.next.numbered operations)) :=
      (ih u.next).append_left u.written
    rw [wire_cons, after_cons, numbered_cons]
    simp only [List.append_assoc] at hfirst hrest ⊢
    exact hrest.trans hfirst

/-- The numbers that were given out follow one another. -/
theorem numbered_range : (l.numbered operations).map Command.seq =
    List.range' l.nextSeq (l.numbered operations).length := by
  induction operations generalizing l with
  | nil => rfl
  | cons operation operations ih =>
    let u : Use := ⟨l, operation⟩
    have hnext : u.next.nextSeq = l.nextSeq + u.own?.toList.length := u.next_number
    have hown : u.own?.toList.map Command.seq = List.range' l.nextSeq u.own?.toList.length := by
      cases hc : u.own? with
      | none => rfl
      | some c => simp [u.own_number hc, u]
    rw [numbered_cons, List.map_append, ih, hown, List.length_append, hnext]
    exact List.range'_append_1 ..

theorem after_number :
    (l.after operations).nextSeq = l.nextSeq + (l.numbered operations).length := by
  induction operations generalizing l with
  | nil => rfl
  | cons operation operations ih =>
    have hnext := Use.next_number ⟨l, operation⟩
    rw [after_cons, ih, numbered_cons, List.length_append, hnext, Nat.add_assoc]

/-- What is queued at any time is what failed writes have left. -/
theorem late_origin {c : Command} (hc : c ∈ (l.after operations).queued) :
    c ∈ l.queued ∨ ∃ u ∈ l.uses operations, u.own? = some c ∧ u.failed = true := by
  induction operations generalizing l with
  | nil => exact Or.inl hc
  | cons operation operations ih =>
    rcases ih _ hc with hnext | ⟨u, hu, hlate⟩
    · rcases Use.queued_origin ⟨l, operation⟩ hnext with hold | hlate
      · exact Or.inl hold
      · exact Or.inr ⟨_, List.mem_cons_self, hlate⟩
    · exact Or.inr ⟨u, List.mem_cons_of_mem _ hu, hlate⟩

/-- Where nothing fails, every command is written when it is sent. -/
theorem wire_of_success (hq : l.queued = []) (hf : ∀ u ∈ l.uses operations, u.failed = false) :
    l.wire operations = l.numbered operations := by
  induction operations generalizing l with
  | nil => rfl
  | cons operation operations ih =>
    obtain ⟨hwritten, hqueued⟩ := Use.written_own ⟨l, operation⟩ hq (hf _ List.mem_cons_self)
    have hrest := ih _ hqueued fun u hu => hf u (List.mem_cons_of_mem _ hu)
    rw [wire_cons, numbered_cons, hwritten, hrest]

end Runs

/-- Over the life of a link the numbers on the wire grow. The commands that got one have the numbers
from one on, and where no write fails they are just what is written. At any time a command that finds
no sink changes nothing, and any other uses up a number. One that gets through is written under its
number, and alone exactly if no failed write has left another. -/
theorem sent_alone_iff_none_late (operations : List Operation) :
    let l := ({} : Link).after operations
    let numbered := ({} : Link).numbered operations
    let wire := ({} : Link).wire operations
    (wire.map Command.seq).Pairwise (· < ·) ∧
    numbered.map Command.seq = List.range' 1 numbered.length ∧
    ((∀ u ∈ ({} : Link).uses operations, u.failed = false) → wire = numbered) ∧
    (∀ c ∈ l.queued, ∃ u ∈ ({} : Link).uses operations, u.own? = some c ∧ u.failed = true) ∧
    ∀ relief intake command arguments,
      let own := Command.make l.nextSeq command arguments
      let sending := l.transmit relief intake command arguments
      own.seq = numbered.length + 1 ∧
      (l.isAttached = false → sending = ⟨.error .notAttached, [], l⟩) ∧
      (l.isAttached = true → sending.link.nextSeq = own.seq + 1) ∧
      ∀ n, sending.result = .ok n → n = own.seq ∧ sending.written = l.queued ++ [own] ∧
        (sending.written = [own] ↔ l.queued = []) := by
  intro l numbered wire
  have hsub : wire.Sublist numbered := by
    have h := wire_sublist {} operations
    exact (List.sublist_append_left ..).trans h
  have hnumbers : numbered.map Command.seq = List.range' 1 numbered.length :=
    numbered_range {} operations
  refine ⟨?_, hnumbers, ?_, ?_, ?_⟩
  · have hseq := hsub.map Command.seq
    rw [hnumbers] at hseq
    exact (List.pairwise_lt_range').sublist hseq
  · exact wire_of_success {} operations rfl
  · intro c hc
    exact (late_origin {} operations hc).resolve_left List.not_mem_nil
  · intro relief intake command arguments own sending
    have hown : own.seq = numbered.length + 1 :=
      (after_number {} operations).trans (Nat.add_comm ..)
    refine ⟨hown, ?_⟩
    rcases l.transmit_cases relief intake command arguments with
      ⟨ha, h⟩ | ⟨ha, h⟩ | ⟨ha, taken, rest, h, _⟩
    · exact ⟨fun _ => h, by simp [ha], fun n hn => by simp [sending, h] at hn⟩
    · have hsending : sending = ⟨.ok l.nextSeq, l.queued ++ [own], ⟨l.nextSeq + 1, some {}⟩⟩ := h
      refine ⟨by simp [ha], fun _ => by rw [hsending]; rfl, fun n hn => ?_⟩
      rw [hsending] at hn ⊢
      have hnumber : n = own.seq := (Except.ok.inj hn).symm
      exact ⟨hnumber, rfl, by simp⟩
    · have hsending : sending = ⟨.error .brokenPipe, taken, ⟨l.nextSeq + 1, some rest⟩⟩ := h
      refine ⟨by simp [ha], fun _ => by rw [hsending]; rfl, fun n hn => ?_⟩
      simp [hsending] at hn

/-- Over two sinks, with a command between them that finds none. -/
theorem sent_alone_over_two_sinks :
    let operations : List Operation := [.attach, .send .all .all "next" .null, .detach,
      .send .all .all "pause" .null, .attach]
    let l := ({} : Link).after operations
    (∀ u ∈ ({} : Link).uses operations, u.failed = false) ∧
      (({} : Link).wire operations).map Command.seq = [1] ∧
      (l.transmit .all .all "continue" .null).written = [.make 2 "continue" .null] := by
  intro operations l
  have hnone : ∀ u ∈ ({} : Link).uses operations, u.failed = false := by decide
  have hwire := (sent_alone_iff_none_late operations).2.2.1 hnone
  have hsend := (sent_alone_iff_none_late operations).2.2.2.2 .all .all "continue" .null
  refine ⟨hnone, ?_, ?_⟩
  · rw [hwire]
    rfl
  · exact (hsend.2.2.2 2 rfl).2.2.mpr rfl

/-- A sink fails at the first command, and takes it along with the second. -/
theorem late_command_taken_along :
    let l := ({} : Link).after [.attach, .send .all (.upTo 0) "next" (.record [])]
    let sending := l.transmit .all .all "continue" (.record [])
    sending.result = .ok 2 ∧ sending.written =
      [.make 1 "next" (.record []), .make 2 "continue" (.record [])] := by
  intro l sending
  exact ⟨rfl, rfl⟩

end Link
end DebugAdapter.Debuggee
