import DebugAdapter.Debuggee.Line
import DebugAdapter.Proofs.Bytes

namespace DebugAdapter.Debuggee

open Json

/-- What a line says; the line feed that ends it is no part of it. -/
def reading (line : Bytes) : List Output :=
  if maxLineBytes < line.length then [.malformed "" .tooLong]
  else
    match line.toString? with
    | none => [.malformed "" .notText]
    | some text =>
      let trimmed := String.ofList (Text.trim text.toList)
      if trimmed = "" then []
      else
        match Record.ofBytes? (.ofString trimmed) with
        | .ok r => [.record r]
        | .error reason => [.malformed trimmed (.notRecord reason)]

/-- What the lines of a stream say. The last one is what follows the last line feed. -/
def readings (stream : Bytes) : List Output :=
  (stream.splitOn lineFeed).flatMap reading

def laterReadings (stream : Bytes) : List Output :=
  (stream.splitOn lineFeed).tail.flatMap reading

section Readings

variable {line more after : Bytes}

theorem reading_kept (hl : line.length ≤ maxLineBytes) :
    reading line = (Output.ofLine? line).toList := by
  rw [reading, if_neg (Nat.not_lt.mpr hl), Output.ofLine?]
  cases line.toString? with
  | none => rfl
  | some text =>
    cases ht : Text.trim text.toList with
    | nil => simp [ht]
    | cons c trimmed =>
      have hne : String.ofList (c :: trimmed) ≠ "" := by
        intro he
        simpa using congrArg String.toList he
      simp only [ht, hne, if_false]
      cases Record.ofBytes? (.ofString (String.ofList (c :: trimmed))) <;> rfl

theorem reading_tooLong (hl : maxLineBytes < line.length) : reading line = [.tooLong] := by
  rw [reading, if_pos hl]
  rfl

/-- A line is read without regard to what comes behind its line feed. -/
theorem readings_append (before after : Bytes) :
    readings (before ++ lineFeed :: after) = readings before ++ readings after := by
  simp [readings, List.splitOn_append_cons_self]

theorem readings_line (hn : lineFeed ∉ line) : readings line = reading line := by
  simp [readings, List.splitOn_eq_singleton hn]

theorem laterReadings_line (hn : lineFeed ∉ line) :
    laterReadings (line ++ lineFeed :: after) = readings after := by
  simp [laterReadings, readings, List.splitOn_append_cons_self_of_not_mem hn]

/-- Bytes without a line feed belong to the first line of the stream that they begin. -/
theorem splitOn_unended (hn : lineFeed ∉ line) (more : Bytes) :
    ∃ first rest, more.splitOn lineFeed = first :: rest ∧
      (line ++ more).splitOn lineFeed = (line ++ first) :: rest := by
  induction line with
  | nil =>
    obtain ⟨first, rest, hs⟩ := List.exists_cons_of_ne_nil (List.splitOn_ne_nil lineFeed more)
    exact ⟨first, rest, hs, hs⟩
  | cons b line ih =>
    rw [List.mem_cons, not_or] at hn
    obtain ⟨first, rest, hmore, hline⟩ := ih hn.2
    refine ⟨first, rest, hmore, ?_⟩
    have hb : (b == lineFeed) = false := by simpa using Ne.symm hn.1
    rw [List.cons_append, List.splitOn_cons_eq_if_modifyHead, hb, hline]
    rfl

theorem laterReadings_unended (hn : lineFeed ∉ line) (more : Bytes) :
    laterReadings (line ++ more) = laterReadings more := by
  obtain ⟨first, rest, hmore, hline⟩ := splitOn_unended hn more
  rw [laterReadings, laterReadings, hmore, hline]
  rfl

theorem readings_tooLong (hn : lineFeed ∉ line) (hl : maxLineBytes < line.length) (more : Bytes) :
    readings (line ++ more) = .tooLong :: laterReadings (line ++ more) := by
  obtain ⟨first, rest, _, hline⟩ := splitOn_unended hn more
  have hfirst : reading (line ++ first) = [.tooLong] :=
    reading_tooLong (by rw [List.length_append]; omega)
  rw [readings, laterReadings, hline, List.flatMap_cons, hfirst]
  rfl

end Readings

namespace LineDecoder

/-- What is still to be said of the bytes that are held and of `more` that comes behind them. -/
def owed (d : LineDecoder) (more : Bytes) : List Output :=
  if d.discarding then laterReadings (d.buffer ++ more) else readings (d.buffer ++ more)

def work (d : LineDecoder) : Nat :=
  2 * d.buffer.length + if d.discarding then 0 else 1

variable {d d' : LineDecoder} {buffer : Bytes} {output : Option Output}

theorem owed_feed (d : LineDecoder) (chunk more : Bytes) :
    (d.feed chunk).owed more = d.owed (chunk ++ more) := by
  simp [owed, feed]

/-- The decoder reads a buffered line as the whole stream would be read, and hands on what lies
behind it. -/
theorem kept_line (hk : nextKept buffer = .line output d') (more : Bytes) :
    readings (buffer ++ more) = output.toList ++ d'.owed more ∧
      d'.work < 2 * buffer.length + 1 := by
  unfold nextKept at hk
  cases hc : buffer.cutAt lineFeed with
  | some cut =>
    obtain ⟨line, rest⟩ := cut
    obtain ⟨hb, hn⟩ := Bytes.cutAt_some_iff.mp hc
    simp only [hc] at hk
    have hsplit : buffer ++ more = line ++ lineFeed :: (rest ++ more) := by simp [hb]
    have hlength : buffer.length = line.length + (rest.length + 1) := by simp [hb]
    by_cases hl : line.length ≤ maxLineBytes
    · rw [if_pos hl] at hk
      cases hk
      refine ⟨?_, by simp only [work]; simp; omega⟩
      rw [hsplit, readings_append, readings_line hn, reading_kept hl]
      rfl
    · rw [if_neg hl] at hk
      cases hk
      refine ⟨?_, by simp [work]⟩
      rw [hsplit, readings_tooLong hn (Nat.lt_of_not_le hl), ← hsplit]
      rfl
  | none =>
    have hn := Bytes.cutAt_none_iff.mp hc
    simp only [hc] at hk
    split at hk
    · rename_i hl
      cases hk
      exact ⟨readings_tooLong hn hl more, by simp [work]⟩
    · cases hk

theorem kept_wait (hk : nextKept buffer = .wait d') :
    d' = ⟨false, buffer⟩ ∧ lineFeed ∉ buffer ∧ buffer.length ≤ maxLineBytes := by
  unfold nextKept at hk
  cases hc : buffer.cutAt lineFeed with
  | some cut =>
    simp only [hc] at hk
    split at hk <;> cases hk
  | none =>
    simp only [hc] at hk
    split at hk
    · cases hk
    · rename_i hl
      cases hk
      exact ⟨rfl, Bytes.cutAt_none_iff.mp hc, Nat.le_of_not_lt hl⟩

/-- A step says the next part of what is owed. -/
theorem next_line (hd : d.next = .line output d') :
    (∀ more, d.owed more = output.toList ++ d'.owed more) ∧ d'.work < d.work := by
  obtain ⟨discarding, buffer⟩ := d
  cases discarding with
  | false =>
    have hk : nextKept buffer = .line output d' := hd
    exact ⟨fun more => (kept_line hk more).1, (kept_line hk []).2⟩
  | true =>
    simp only [next, if_true] at hd
    cases hc : buffer.cutAt lineFeed with
    | none =>
      simp only [hc] at hd
      cases hd
    | some cut =>
      obtain ⟨line, rest⟩ := cut
      obtain ⟨hb, hn⟩ := Bytes.cutAt_some_iff.mp hc
      simp only [hc] at hd
      constructor
      · intro more
        have hsplit : buffer ++ more = line ++ lineFeed :: (rest ++ more) := by simp [hb]
        rw [owed, if_pos rfl, hsplit, laterReadings_line hn]
        exact (kept_line hd more).1
      · have hwork := (kept_line hd []).2
        have hlength : buffer.length = line.length + (rest.length + 1) := by simp [hb]
        simp only [work, if_true] at hwork ⊢
        omega

/-- What is left when no further line can be taken: an unfinished line that is kept, or nothing of
one that is discarded. -/
def Settled (d : LineDecoder) : Prop :=
  if d.discarding then d.buffer = []
  else lineFeed ∉ d.buffer ∧ d.buffer.length ≤ maxLineBytes

/-- A decoder that waits owes what it owed before, and has settled. -/
theorem next_wait (hd : d.next = .wait d') :
    (∀ more, d.owed more = d'.owed more) ∧ d'.Settled := by
  obtain ⟨discarding, buffer⟩ := d
  cases discarding with
  | false =>
    obtain ⟨rfl, hn, hl⟩ := kept_wait (show nextKept buffer = .wait d' from hd)
    exact ⟨fun _ => rfl, hn, hl⟩
  | true =>
    simp only [next, if_true] at hd
    cases hc : buffer.cutAt lineFeed with
    | none =>
      simp only [hc] at hd
      cases hd
      exact ⟨laterReadings_unended (Bytes.cutAt_none_iff.mp hc), rfl⟩
    | some cut =>
      obtain ⟨line, rest⟩ := cut
      obtain ⟨hb, hn⟩ := Bytes.cutAt_some_iff.mp hc
      simp only [hc] at hd
      obtain ⟨rfl, hrest⟩ := kept_wait hd
      refine ⟨fun more => ?_, hrest⟩
      have hsplit : buffer ++ more = line ++ lineFeed :: (rest ++ more) := by simp [hb]
      rw [owed, if_pos rfl, hsplit, laterReadings_line hn]
      rfl

theorem drainFrom_done (limit : Nat) (done : List Output) (d : LineDecoder) :
    drainFrom limit done d =
      (done.reverse ++ (drainFrom limit [] d).1, (drainFrom limit [] d).2) := by
  induction limit generalizing done d with
  | zero => simp [drainFrom]
  | succ limit ih =>
    simp only [drainFrom]
    cases d.next with
    | wait d' => simp
    | line output d' =>
      simp only
      rw [ih (output.toList ++ done) d', ih (output.toList ++ []) d']
      cases output <;> simp

/-- Any two limits above the work that there is give the same. -/
theorem drainFrom_limit {m n : Nat} (hm : d.work < m) (hn : d.work < n) :
    drainFrom m [] d = drainFrom n [] d := by
  induction m generalizing d n with
  | zero => exact absurd hm (Nat.not_lt_zero _)
  | succ m ih =>
    obtain ⟨n, rfl⟩ := Nat.exists_eq_add_one_of_ne_zero (Nat.ne_zero_of_lt hn)
    simp only [drainFrom]
    cases hd : d.next with
    | wait d' => rfl
    | line output d' =>
      have hwork := (next_line hd).2
      simp only
      rw [drainFrom_done m, drainFrom_done n, ih (n := n) (by omega) (by omega)]

/-- All lines that have arrived are those that the steps take until there is none left. -/
theorem drain_eq (d : LineDecoder) :
    d.drain = match d.next with
      | .wait d' => ([], d')
      | .line output d' => (output.toList ++ d'.drain.1, d'.drain.2) := by
  have hlimit : d.work < 2 * d.buffer.length + 2 := by
    unfold work
    split <;> omega
  rw [drain, drainFrom]
  cases hd : d.next with
  | wait d' => rfl
  | line output d' =>
    have hwork := (next_line hd).2
    have hlimit' : d'.work < 2 * d'.buffer.length + 2 := by
      unfold work
      split <;> omega
    simp only
    rw [drainFrom_done, drainFrom_limit (n := 2 * d'.buffer.length + 2) (by omega) hlimit', drain]
    cases output <;> rfl

/-- What a drain gives and what it leaves owed are together what was owed. -/
theorem drain_owed (d : LineDecoder) :
    (∀ more, d.owed more = d.drain.1 ++ d.drain.2.owed more) ∧ d.drain.2.Settled := by
  rw [drain_eq]
  cases hd : d.next with
  | wait d' => exact next_wait hd
  | line output d' =>
    obtain ⟨hpaid, hwork⟩ := next_line hd
    obtain ⟨hrest, hsettled⟩ := d'.drain_owed
    refine ⟨fun more => ?_, hsettled⟩
    rw [hpaid, hrest, List.append_assoc]
termination_by d.work

/-- Takes what each chunk brings as soon as it has come. -/
def receive (d : LineDecoder) : List Bytes → List Output × LineDecoder
  | [] => ([], d)
  | chunk :: chunks =>
    let (first, d) := (d.feed chunk).drain
    let (others, d) := receive d chunks
    (first ++ others, d)

theorem receive_owed (d : LineDecoder) (chunks : List Bytes) (more : Bytes) :
    d.owed (chunks.flatten ++ more) =
      (d.receive chunks).1 ++ (d.receive chunks).2.owed more := by
  induction chunks generalizing d with
  | nil => rfl
  | cons chunk chunks ih =>
    calc d.owed ((chunk :: chunks).flatten ++ more)
        = (d.feed chunk).owed (chunks.flatten ++ more) := by rw [owed_feed]; simp
      _ = (d.feed chunk).drain.1 ++ (d.feed chunk).drain.2.owed (chunks.flatten ++ more) :=
          (d.feed chunk).drain_owed.1 _
      _ = (d.receive (chunk :: chunks)).1 ++ (d.receive (chunk :: chunks)).2.owed more := by
          rw [ih, ← List.append_assoc]
          rfl

theorem receive_snoc (d : LineDecoder) (chunks : List Bytes) (chunk : Bytes) :
    d.receive (chunks ++ [chunk]) =
      ((d.receive chunks).1 ++ ((d.receive chunks).2.feed chunk).drain.1,
        ((d.receive chunks).2.feed chunk).drain.2) := by
  induction chunks generalizing d with
  | nil => simp [receive]
  | cons first chunks ih => simp [receive, ih]

/-- What is left of a kept line reads as what it says, also if only a carriage return is left. -/
theorem settled_owed (hs : d.Settled) :
    d.owed [] = if d.buffer.isEmpty ∨ d.buffer = [0x0D] then []
      else (Output.ofLine? d.buffer).toList := by
  obtain ⟨discarding, buffer⟩ := d
  cases discarding with
  | true =>
    obtain rfl : buffer = [] := hs
    rfl
  | false =>
    obtain ⟨hn, hl⟩ : lineFeed ∉ buffer ∧ buffer.length ≤ maxLineBytes := hs
    have howed : owed ⟨false, buffer⟩ [] = (Output.ofLine? buffer).toList := by
      rw [owed, List.append_nil, ← reading_kept hl, ← readings_line hn]
      rfl
    rw [howed]
    split
    · rename_i hb
      rcases hb with hb | rfl
      · obtain rfl : buffer = [] := List.isEmpty_iff.mp hb
        rfl
      · rfl
    · rfl

/-- At the end of the stream everything owed is given. -/
theorem finish_owed (d : LineDecoder) : d.finish.1 = d.owed [] := by
  obtain ⟨hpaid, hsettled⟩ := d.drain_owed
  rw [hpaid, settled_owed hsettled, finish]
  simp only
  split <;> simp

/-- At the end of the output nothing is left that a line could be made of. -/
theorem finish_finish (d : LineDecoder) : d.finish.2.finish.1 = [] := by
  obtain ⟨_, hsettled⟩ := d.drain_owed
  rw [finish_owed d.finish.2, finish]
  simp only
  split
  · rename_i hb
    rw [settled_owed hsettled, if_pos hb]
  · cases d.drain.2.discarding <;> rfl

end LineDecoder

/-- In whatever chunks a stream arrives, what is read of it is what its lines say, one by one and
the unended rest too, and nothing comes after that. So the lines before and after a line feed are
read as if they stood alone. -/
theorem lines_read_in_any_chunks (chunks : List Bytes) :
    let (outputs, d) := LineDecoder.receive {} chunks
    outputs ++ d.finish.1 = readings chunks.flatten ∧ d.finish.2.finish.1 = [] ∧
      (∀ before after,
        readings (before ++ lineFeed :: after) = readings before ++ readings after) ∧
      LineError.tooLong.message = "line exceeds 8388608 bytes" := by
  refine ⟨?_, LineDecoder.finish_finish _, readings_append, rfl⟩
  have h := LineDecoder.receive_owed {} chunks []
  rw [List.append_nil] at h
  rw [LineDecoder.finish_owed]
  exact h.symm

end DebugAdapter.Debuggee
