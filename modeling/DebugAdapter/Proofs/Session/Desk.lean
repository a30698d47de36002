import DebugAdapter.Proofs.Correlation.Ledger
import DebugAdapter.Proofs.Session.Handling

namespace DebugAdapter.Session

open Frontend Correlation

/-- How a reply is matched: by its number where that is pending, else by its command. -/
def matching (s : Session) (r : Debuggee.Reply) : Operation Nat :=
  match r.requestSeq with
  | none => .resolveCommand r.command r.body
  | some seq =>
    if s.pending.contains seq then .resolve seq r.body else .resolveCommand r.command r.body

def operation? (env : Environment) (s : Session) : Move → Option (Operation Nat)
  | .request r =>
    if r.command = "disconnect" ∨ r.command = "terminate" then some .drain
    else if s.defers env r then
      some (.register s.link.nextSeq "stackTrace" r.seq emptyStackTrace
        (env.now + s.config.stackTraceTimeout))
    else none
  | .report (.record (.event ..)) => none
  | .report (.record (.reply r)) => some (s.matching r)
  | .report (.malformed ..) => none
  | .report (.exited _) => some .drain
  | .timer key generation => some (.fire key generation)
  | .handshake => none
  | .answer _ => none
  | .shutDown => some .drain

variable (env : Environment) (s : Session)

/-- The desk of `s` after an operation: the table is that of the operation, and what it completed
lies behind what was released before. -/
def Worked (s t : Session) : Option (Operation Nat) → Prop
  | none => t.pending = s.pending ∧ t.released = s.released
  | some op => t.pending = (op.apply s.pending).table ∧
      t.released = s.released ++ (op.apply s.pending).completed

theorem cutOff_worked : s.Worked s.cutOff (some .drain) :=
  ⟨rfl, rfl⟩

/-- A request does the one operation on the desk that is named for it. -/
theorem obey_worked (r : Request) : s.Worked (s.obey env r).1 (s.operation? env (.request r)) := by
  have hnothing (hd : ¬ (r.command = "disconnect" ∨ r.command = "terminate"))
      (hc : s.defers env r = false) : s.operation? env (.request r) = none := by
    simp [operation?, hd, hc]
  refine s.obey_cases env r ?greet ?launch ?disconnect ?breakpoints ?plain ?stackTrace ?threads
    ?unsupported
  case greet =>
    intro hc
    rw [hnothing (by simp [hc]) (by simp [defers, hc])]
    by_cases hp : s.phase = .idle <;> simp [greet, hp, Worked]
  case launch =>
    intro hc
    rw [hnothing (by simp [hc]) (by simp [defers, hc])]
    rw [launch_eq]
    split
    · simp [Worked]
    · split <;> simp [Worked]
  case disconnect =>
    intro hc
    rw [operation?, if_pos hc]
    simpa [disconnect_session, Worked] using s.cutOff_worked
  case breakpoints =>
    intro hc
    rw [hnothing (by simp [hc]) (by simp [defers, hc])]
    simp [setBreakpoints, Worked]
  case plain =>
    intro hc
    rw [hnothing (by rintro (heq | heq) <;> simp [heq, plainCommands] at hc)
      (by by_contra hd; simp [defers] at hd; simp [hd, plainCommands] at hc)]
    simp [Worked]
  case stackTrace =>
    intro hc
    rcases s.stackTrace_cases env r hc with ⟨hd, waiting, _, he⟩ | ⟨hd, link, _, he⟩
    · rw [operation?, if_neg (by simp [hc]), if_pos hd, he]
      exact ⟨rfl, rfl⟩
    · rw [hnothing (by simp [hc]) hd, he]
      exact ⟨rfl, rfl⟩
  case threads =>
    intro hc
    rw [hnothing (by simp [hc]) (by simp [defers, hc])]
    exact ⟨rfl, rfl⟩
  case unsupported =>
    intro hc
    rw [hnothing (by rintro (heq | heq) <;> simp [heq] at hc)
      (by by_contra hd; simp [defers] at hd; simp [hd] at hc)]
    exact ⟨rfl, rfl⟩

/-- A reply is matched by one operation: by its number, and by its command only where its number is
not pending. -/
theorem matchReply_eq (r : Debuggee.Reply) :
    (s.matchReply r).1.toList = ((s.matching r).apply s.pending).completed ∧
      (s.matchReply r).2 = ((s.matching r).apply s.pending).table := by
  cases hr : r.requestSeq with
  | none => simp [matchReply, matching, hr, Operation.apply]
  | some seq =>
    cases hf : s.pending.find? seq <;>
      simp [matchReply, matching, hr, hf, Table.contains, Table.resolve, Operation.apply]

theorem handleReply_worked (r : Debuggee.Reply) :
    s.Worked (s.handleReply r) (some (s.matching r)) := by
  obtain ⟨hdone, htable⟩ := s.matchReply_eq r
  exact ⟨htable, by simp [handleReply, hdone]⟩

theorem handleReport_worked (report : Debuggee.Report) :
    s.Worked (s.handleReport report).1 (s.operation? env (.report report)) := by
  rcases report with (⟨name, body⟩ | reply) | ⟨line, reason⟩ | info
  · simp only [handleReport, handleEvent, operation?]
    split
    · exact ⟨rfl, rfl⟩
    · split
      · simp [Worked]
      · split <;> exact ⟨rfl, rfl⟩
  · exact { s with heard := true }.handleReply_worked reply
  · exact ⟨rfl, rfl⟩
  · simpa [handleReport, handleExit, operation?, Worked] using s.cutOff_worked

theorem stepHandshake_worked : s.Worked (s.stepHandshake env).1 none := by
  unfold stepHandshake
  split
  · exact ⟨rfl, rfl⟩
  · exact ⟨rfl, rfl⟩
  · rename_i program deadline _
    have hsend := s.send_session env "initialize" (.record [])
    split
    · split <;> simp_all [Worked]
    · exact ⟨rfl, rfl⟩
  · split
    · simp [Worked]
    · exact ⟨rfl, rfl⟩

theorem matching_added (r : Debuggee.Reply) (generation : Nat) :
    (s.matching r).added generation = [] := by
  unfold matching
  split
  · rfl
  · split <;> rfl

theorem operation_added (move : Move) (hr : ∀ r, move ≠ .request r) {op : Operation Nat}
    (hop : s.operation? env move = some op) (generation : Nat) : op.added generation = [] := by
  cases move with
  | request r => exact absurd rfl (hr r)
  | report report =>
    rcases report with (⟨name, body⟩ | reply) | ⟨line, reason⟩ | info <;>
      simp only [operation?, reduceCtorEq, Option.some.injEq] at hop
    · exact hop ▸ s.matching_added reply generation
    · exact hop ▸ rfl
  | timer key fired => cases hop; rfl
  | handshake => cases hop
  | answer index => cases hop
  | shutDown => cases hop; rfl

/-- A request registers itself if it is deferred. -/
theorem request_added (r : Request) {op : Operation Nat}
    (hop : s.operation? env (.request r) = some op) (generation : Nat) :
    op.added generation = if s.defers env r then
      [⟨s.link.nextSeq, generation, "stackTrace", r.seq, emptyStackTrace,
        env.now + s.config.stackTraceTimeout⟩] else [] := by
  simp only [operation?] at hop
  by_cases hd : s.defers env r = true
  · rw [if_neg (by simp [s.defers_command env hd]), if_pos hd, Option.some.injEq] at hop
    rw [if_pos hd, ← hop]
    rfl
  · by_cases hc : r.command = "disconnect" ∨ r.command = "terminate"
    · rw [if_pos hc, Option.some.injEq] at hop
      rw [if_neg hd, ← hop]
      rfl
    · rw [if_neg hc, if_neg hd] at hop
      cases hop

/-- A move that is no answer does its operation on the table and releases what that completes. -/
theorem step_worked (move : Move) (hm : ∀ index, move ≠ .answer index) :
    s.Worked (s.step env move).1 (s.operation? env move) := by
  cases move with
  | request r => exact s.obey_worked env r
  | report report => exact s.handleReport_worked env report
  | timer key generation => exact ⟨rfl, rfl⟩
  | handshake => exact s.stepHandshake_worked env
  | answer index => exact absurd rfl (hm index)
  | shutDown => exact s.cutOff_worked

theorem answer_desk (index : Nat) :
    (s.answerReleased index).1.pending = s.pending ∧
      (s.answerReleased index).1.released = s.released.eraseIdx index := by
  cases hc : s.released[index]? with
  | none =>
    have hlen := List.getElem?_eq_none_iff.mp hc
    simp [answerReleased, hc, List.eraseIdx_of_length_le hlen]
  | some c => simp [answerReleased, hc]

/-- An answer takes one release, if it finds it. -/
theorem answer_takes (index : Nat) :
    (s.released[index]?.toList ++ (s.answerReleased index).1.released).Perm s.released := by
  rw [(s.answer_desk index).2]
  cases hc : s.released[index]? with
  | none =>
    rw [List.eraseIdx_of_length_le (List.getElem?_eq_none_iff.mp hc)]
    exact List.Perm.refl _
  | some c =>
    obtain ⟨hlen, hget⟩ := List.getElem?_eq_some_iff.mp hc
    exact hget ▸ List.getElem_cons_eraseIdx_perm hlen

/-- All that a move can do to the desk. -/
theorem step_cases (move : Move) :
    (∃ index, (s.step env move).1.pending = s.pending ∧
      (s.step env move).1.released = s.released.eraseIdx index) ∨
    ((s.step env move).1.pending = s.pending ∧ (s.step env move).1.released = s.released) ∨
    ∃ op, s.operation? env move = some op ∧
      (s.step env move).1.pending = (op.apply s.pending).table ∧
      (s.step env move).1.released = s.released ++ (op.apply s.pending).completed := by
  by_cases ha : ∃ index, move = .answer index
  · obtain ⟨index, rfl⟩ := ha
    exact Or.inl ⟨index, s.answer_desk index⟩
  · have hw := s.step_worked env move fun index hi => ha ⟨index, hi⟩
    cases hop : s.operation? env move with
    | none =>
      rw [hop] at hw
      exact Or.inr (Or.inl hw)
    | some op =>
      rw [hop] at hw
      exact Or.inr (Or.inr ⟨op, rfl, hw⟩)

/-- Where an entry on the desk comes from: it was there, or it is that of a deferred request. -/
theorem entry_origin (hk : s.pending.KeysUnique) (move : Move) {e : Entry Nat}
    (he : e ∈ (s.step env move).1.pending.entries) :
    e ∈ s.pending.entries ∨ ∃ r, move = .request r ∧ s.defers env r = true ∧
      e = ⟨s.link.nextSeq, s.pending.nextGeneration, "stackTrace", r.seq, emptyStackTrace,
        env.now + s.config.stackTraceTimeout⟩ := by
  rcases s.step_cases env move with ⟨_, hp, _⟩ | ⟨hp, _⟩ | ⟨op, hop, hp, _⟩
  · exact Or.inl (hp ▸ he)
  · exact Or.inl (hp ▸ he)
  · rw [hp] at he
    have hm := (op.apply_takes s.pending hk).mem_iff.mp (List.mem_append_right _ he)
    rcases List.mem_append.mp hm with hm | hm
    · exact Or.inl hm
    · right
      by_cases hr : ∃ r, move = .request r
      · obtain ⟨r, rfl⟩ := hr
        rw [s.request_added env r hop] at hm
        split at hm
        · rename_i hd
          exact ⟨r, rfl, hd, List.mem_singleton.mp hm⟩
        · exact absurd hm List.not_mem_nil
      · rw [s.operation_added env move (fun r h => hr ⟨r, h⟩) hop] at hm
        exact absurd hm List.not_mem_nil

/-- Where a release comes from: it was there, or the move's operation completed an entry. -/
theorem release_origin (hk : s.pending.KeysUnique) (move : Move) {c : Completion Nat}
    (hc : c ∈ (s.step env move).1.released) :
    c ∈ s.released ∨ ∃ op e, s.operation? env move = some op ∧ e ∈ s.pending.entries ∧
      op.Reaches e ∧ c = e.complete (op.payload e.fallback) := by
  rcases s.step_cases env move with ⟨_, _, hr⟩ | ⟨_, hr⟩ | ⟨op, hop, _, hr⟩
  · rw [hr] at hc
    exact Or.inl (List.mem_of_mem_eraseIdx hc)
  · exact Or.inl (hr ▸ hc)
  · rw [hr, op.completed_eq] at hc
    rcases List.mem_append.mp hc with hc | hc
    · exact Or.inl hc
    · right
      obtain ⟨e, he, rfl⟩ := List.mem_map.mp hc
      exact ⟨op, e, hop, op.taken_mem s.pending he, op.taken_reached s.pending hk he, rfl⟩

/-- What is pending in a session that runs: stack traces, each under the number of a command that
was sent, with no frames to fall back on. -/
structure DeskSound (s : Session) : Prop where
  keys : s.pending.KeysUnique
  command : ∀ e ∈ s.pending.entries, e.command = "stackTrace"
  fallback : ∀ e ∈ s.pending.entries, e.fallback = emptyStackTrace
  number : ∀ e ∈ s.pending.entries, e.key < s.link.nextSeq

theorem start_sound (config : Config) (roots : List String) : (start config roots).DeskSound :=
  ⟨Table.empty_keys, by simp [start], by simp [start], by simp [start]⟩

theorem step_keys (hk : s.pending.KeysUnique) (move : Move) :
    (s.step env move).1.pending.KeysUnique := by
  rcases s.step_cases env move with ⟨_, hp, _⟩ | ⟨hp, _⟩ | ⟨op, _, hp, _⟩
  · exact hp ▸ hk
  · exact hp ▸ hk
  · exact hp ▸ op.apply_keys s.pending hk

/-- Every move keeps the desk sound. -/
theorem step_sound (hs : s.DeskSound) (move : Move) : (s.step env move).1.DeskSound := by
  refine ⟨s.step_keys env hs.keys move, ?_, ?_, ?_⟩
  all_goals
    intro e he
    rcases s.entry_origin env hs.keys move he with hold | ⟨r, rfl, hd, rfl⟩
  · exact hs.command e hold
  · rfl
  · exact hs.fallback e hold
  · rfl
  · exact Nat.lt_of_lt_of_le (hs.number e hold) (s.step_number_le env move)
  · rw [s.deferred_number env r hd]
    exact Nat.lt_succ_self _

theorem reachable_sound (hr : s.Reachable) : s.DeskSound :=
  hr.induction start_sound fun t env move ht => t.step_sound env ht move

end DebugAdapter.Session
