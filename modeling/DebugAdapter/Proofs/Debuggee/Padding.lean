import DebugAdapter.Proofs.Debuggee.Supervision

namespace DebugAdapter.Debuggee

open Json

/-- A line without its end that holds no record: it is too long, it is no text, or its text reads as
none. -/
inductive Garbled (line : Bytes) : Prop
  | tooLong : maxLineBytes < line.length → Garbled line
  | notText : line.toString? = none → Garbled line
  | notRecord (text : String) (reason : ReadError) : line.toString? = some text →
      Record.ofBytes? (.ofString (String.ofList (Text.trim text.toList))) = .error reason →
      Garbled line

def Ended (unit : Bytes) : Prop :=
  ∃ line, lineFeed ∉ line ∧ unit = line ++ [lineFeed]

/-- A line with its end that holds no record. -/
def Noise (unit : Bytes) : Prop :=
  ∃ line, lineFeed ∉ line ∧ Garbled line ∧ unit = line ++ [lineFeed]

def records (outputs : List Output) : List Record :=
  outputs.filterMap fun
    | .record r => some r
    | .malformed .. => none

theorem records_append (first second : List Output) :
    records (first ++ second) = records first ++ records second :=
  List.filterMap_append

theorem records_garbled {line : Bytes} (hg : Garbled line) : records (reading line) = [] := by
  unfold reading
  split
  · rfl
  · rename_i hl
    cases hg with
    | tooLong hlong => exact absurd hlong hl
    | notText hnone =>
      rw [hnone]
      rfl
    | notRecord text reason htext hread =>
      simp only [htext, hread]
      split <;> rfl

namespace LineDecoder

variable {d d' : LineDecoder} {buffer chunk line : Bytes} {output : Option Output}

theorem feed_nil (d : LineDecoder) : d.feed [] = d := by
  simp [feed]

theorem feed_append (d : LineDecoder) (first second : Bytes) :
    d.feed (first ++ second) = (d.feed first).feed second := by
  simp [feed]

theorem nextKept_line_feed (hk : nextKept buffer = .line output d') (chunk : Bytes) :
    nextKept (buffer ++ chunk) = .line output (d'.feed chunk) := by
  unfold nextKept at hk ⊢
  cases hc : buffer.cutAt lineFeed with
  | some cut =>
    rw [Bytes.cutAt_append hc chunk]
    simp only [hc] at hk ⊢
    split at hk <;> cases hk <;> rename_i hl
    · rw [if_pos hl]
      rfl
    · rw [if_neg hl]
      rfl
  | none =>
    simp only [hc] at hk
    split at hk
    · rename_i hl
      cases hk
      -- The line has become longer still, whether or not its end is there now.
      cases hc' : (buffer ++ chunk).cutAt lineFeed with
      | none =>
        rw [if_pos (by rw [List.length_append]; omega)]
        rfl
      | some cut =>
        obtain ⟨line, rest⟩ := cut
        have hlonger : ¬ line.length ≤ maxLineBytes := by
          obtain ⟨hb, _⟩ := Bytes.cutAt_some_iff.mp hc'
          rcases List.append_eq_append_iff.mp hb with ⟨more, rfl, _⟩ | ⟨more, rfl, hmore⟩
          · rw [List.length_append]
            omega
          · cases more with
            | nil =>
              rw [List.append_nil] at hl
              omega
            | cons b more =>
              obtain ⟨rfl, _⟩ := List.cons.inj hmore
              exact absurd (List.mem_append_right _ List.mem_cons_self)
                (Bytes.cutAt_none_iff.mp hc)
        simp only
        rw [if_neg hlonger]
        rfl
    · cases hk

/-- A line that can be read does not change when more bytes arrive. -/
theorem next_line_feed (hd : d.next = .line output d') (chunk : Bytes) :
    (d.feed chunk).next = .line output (d'.feed chunk) := by
  obtain ⟨discarding, buffer⟩ := d
  cases discarding with
  | false => exact nextKept_line_feed hd chunk
  | true =>
    simp only [next, feed, if_true] at hd ⊢
    cases hc : buffer.cutAt lineFeed with
    | none =>
      simp only [hc] at hd
      cases hd
    | some cut =>
      simp only [hc] at hd
      simp only [Bytes.cutAt_append hc chunk]
      exact nextKept_line_feed hd chunk

theorem next_wait_feed (hd : d.next = .wait d') (chunk : Bytes) :
    (d.feed chunk).next = (d'.feed chunk).next := by
  obtain ⟨discarding, buffer⟩ := d
  cases discarding with
  | false =>
    obtain ⟨rfl, _⟩ := kept_wait (show nextKept buffer = .wait d' from hd)
    rfl
  | true =>
    simp only [next, if_true] at hd
    cases hc : buffer.cutAt lineFeed with
    | none =>
      simp only [hc] at hd
      cases hd
      have hn := Bytes.cutAt_none_iff.mp hc
      simp only [next, feed, if_true, List.nil_append]
      cases hc' : chunk.cutAt lineFeed with
      | none =>
        have hnone : (buffer ++ chunk).cutAt lineFeed = none := by
          rw [Bytes.cutAt_none_iff, List.mem_append]
          exact not_or.mpr ⟨hn, Bytes.cutAt_none_iff.mp hc'⟩
        rw [hnone]
      | some cut =>
        obtain ⟨line, rest⟩ := cut
        obtain ⟨rfl, hline⟩ := Bytes.cutAt_some_iff.mp hc'
        have hsome : (buffer ++ (line ++ lineFeed :: rest)).cutAt lineFeed =
            some (buffer ++ line, rest) := by
          rw [Bytes.cutAt_some_iff, List.mem_append]
          exact ⟨(List.append_assoc ..).symm, not_or.mpr ⟨hn, hline⟩⟩
        rw [hsome]
    | some cut =>
      obtain ⟨line, rest⟩ := cut
      simp only [hc] at hd
      obtain ⟨rfl, _⟩ := kept_wait hd
      simp only [next, feed, if_true, Bytes.cutAt_append hc chunk]
      rfl

/-- What comes later is read behind what was read before. -/
theorem drain_feed (d : LineDecoder) (chunk : Bytes) :
    (d.feed chunk).drain =
      (d.drain.1 ++ (d.drain.2.feed chunk).drain.1, (d.drain.2.feed chunk).drain.2) := by
  rw [drain_eq d]
  cases hn : d.next with
  | wait d' =>
    rw [drain_eq (d.feed chunk), next_wait_feed hn, ← drain_eq]
    rfl
  | line output d' =>
    have hwork := (next_line hn).2
    rw [drain_eq (d.feed chunk), next_line_feed hn]
    simp only
    rw [d'.drain_feed chunk, List.append_assoc]
termination_by d.work

/-- Pieces that are read one by one are read as if they had come at once. -/
theorem receive_feed (d : LineDecoder) (chunks : List Bytes) :
    (d.feed chunks.flatten).drain =
      (d.drain.1 ++ (d.drain.2.receive chunks).1, (d.drain.2.receive chunks).2) := by
  induction chunks generalizing d with
  | nil => simp [feed_nil, receive]
  | cons chunk chunks ih =>
    rw [List.flatten_cons, feed_append, ih (d.feed chunk), drain_feed, List.append_assoc]
    rfl

/-- The first line of a stream is read as what it says, and the others as if they stood alone. -/
theorem drain_line (hn : lineFeed ∉ line) (rest : Bytes) :
    (feed {} (line ++ lineFeed :: rest)).drain =
      (reading line ++ (feed {} rest).drain.1, (feed {} rest).drain.2) := by
  have hc : (line ++ lineFeed :: rest).cutAt lineFeed = some (line, rest) :=
    Bytes.cutAt_some_iff.mpr ⟨rfl, hn⟩
  by_cases hl : line.length ≤ maxLineBytes
  · have hnext : (feed {} (line ++ lineFeed :: rest)).next =
        .line (Output.ofLine? line) (feed {} rest) := by
      simp [next, feed, nextKept, hc, hl]
    rw [drain_eq, hnext, reading_kept hl]
  · have hnext : (feed {} (line ++ lineFeed :: rest)).next =
        .line (some .tooLong) ⟨true, line ++ lineFeed :: rest⟩ := by
      simp [next, feed, nextKept, hc, hl]
    have hskip : next ⟨true, line ++ lineFeed :: rest⟩ = (feed {} rest).next := by
      simp [next, feed, hc]
    rw [drain_eq, hnext, reading_tooLong (Nat.lt_of_not_le hl)]
    simp only
    rw [drain_eq, hskip, ← drain_eq]
    rfl

/-- What is read so far, and what is left at the end, are what the lines say. -/
theorem drain_finish (stream : Bytes) :
    (feed {} stream).drain.1 ++ (feed {} stream).drain.2.finish.1 = readings stream := by
  rw [finish_owed, ← (feed {} stream).drain_owed.1]
  simp [owed, feed]

end LineDecoder

section Streams

open LineDecoder

variable {unfinished : Prop} {plain padded : Bytes}

/-- Lines without a record add no record to those read so far. -/
theorem records_padded (hp : Bytes.Padded unfinished Ended Noise plain padded) :
    records (feed {} padded).drain.1 = records (feed {} plain).drain.1 := by
  induction hp with
  | rest => rfl
  | begun _ hnoise hb =>
    obtain ⟨more, hunit⟩ := hb
    obtain ⟨line, hn, hg, rfl⟩ := hnoise
    have hwhole := congrArg (records ·.1) (drain_line hn [])
    rw [← hunit, feed_append, drain_feed] at hwhole
    simp only [records_append, records_garbled hg, List.nil_append] at hwhole
    exact (List.append_eq_nil_iff.mp hwhole).1
  | added hnoise _ ih =>
    obtain ⟨line, hn, hg, rfl⟩ := hnoise
    rw [List.append_assoc, List.singleton_append, drain_line hn, records_append,
      records_garbled hg, ih]
    rfl
  | kept hended _ ih =>
    obtain ⟨line, hn, rfl⟩ := hended
    simp only [List.append_assoc, List.singleton_append, drain_line hn, records_append, ih]

/-- At the end of the output they have added none either, if all of them are complete. -/
theorem records_readings (hp : Bytes.Padded False Ended Noise plain padded) :
    records (readings padded) = records (readings plain) := by
  induction hp with
  | rest => rfl
  | begun hfalse => exact hfalse.elim
  | added hnoise _ ih =>
    obtain ⟨line, hn, hg, rfl⟩ := hnoise
    rw [List.append_assoc, List.singleton_append, readings_append, readings_line hn,
      records_append, records_garbled hg, ih]
    rfl
  | kept hended _ ih =>
    obtain ⟨line, hn, rfl⟩ := hended
    simp only [List.append_assoc, List.singleton_append, readings_append, records_append, ih]

end Streams

/-- A report that tells something. -/
def Report.carries : Report → Bool
  | .record _ | .exited _ => true
  | .malformed .. => false

/-- What is reported of lines, without those that hold no record. -/
theorem reports_carried (outputs : List Output) :
    (outputs.map Report.ofOutput).filter Report.carries = (records outputs).map .record := by
  induction outputs with
  | nil => rfl
  | cons o outputs ih =>
    cases o with
    | record r => exact congrArg (.record r :: ·) ih
    | malformed => exact ih

/-- What the supervisor of a debuggee knows of its output: as long as it reads, all that was
written. -/
structure Supervisor.Hears (stream : Bytes) (s : Supervisor) : Prop where
  listening : s.listening = true
  decoder : s.outputOpen = true → s.decoder = (LineDecoder.feed {} stream).drain.2

namespace Supervisor

variable {s : Supervisor} {move : Move} {stream : Bytes}

def Move.isApart : Move → Bool
  | .output _ | .outputEnds => false
  | .errorsEnd | .stop | .poll .. | .cancel => true

theorem poll_apart (s : Supervisor) (d : LineDecoder) (now : Nat) (status : Option ExitInfo) :
    { s with decoder := d }.poll now status =
      (s.poll now status).map fun p => ({ p.1 with decoder := d }, p.2) := by
  cases hs : s.stage with
  | watching =>
    cases status with
    | some info => simp [poll, hs, drain]
    | none => cases hr : s.stopRequested <;> simp [poll, hs, hr]
  | stopping deadline =>
    cases status with
    | some info => simp [poll, hs, drain]
    | none => by_cases hd : deadline ≤ now <;> simp [poll, hs, hd]
  | killing => cases status <;> simp [poll, hs, drain]
  | drainingOutput info deadline =>
    by_cases hd : s.outputOpen = false ∨ deadline ≤ now <;> simp [poll, hs, hd]
  | drainingErrors info deadline =>
    by_cases hd : s.errorsOpen = false ∨ deadline ≤ now <;> simp [poll, hs, hd, finish]
  | finished => simp [poll, hs]

/-- What does not concern the output does not depend on what was read of it. -/
theorem step_apart (ha : move.isApart) (s : Supervisor) (d : LineDecoder) :
    { s with decoder := d }.step move =
      ({ (s.step move).1 with decoder := d }, (s.step move).2) := by
  cases move with
  | output | outputEnds => cases ha
  | errorsEnd | stop | cancel => rfl
  | poll now status =>
    simp only [step, poll_apart]
    cases s.poll now status <;> rfl

/-- A reader that has ended does not begin again. -/
theorem apart_closed (ha : move.isApart) (hl : s.listening = true) :
    (s.step move).1.listening = true ∧
      ((s.step move).1.outputOpen = true → s.outputOpen = true) := by
  cases move with
  | output | outputEnds => cases ha
  | errorsEnd | stop => exact ⟨hl, id⟩
  | cancel => exact ⟨hl, fun ho => (Bool.and_eq_true_iff.mp ho).1⟩
  | poll now status =>
    have hp := s.step_polled now status
    generalize s.step (.poll now status) = outcome at hp ⊢
    obtain ⟨t, reports⟩ := outcome
    cases hp <;> exact ⟨hl, id⟩

theorem Hears.apart (h : s.Hears stream) (ha : move.isApart) : (s.step move).1.Hears stream := by
  obtain ⟨hlistening, hopen⟩ := apart_closed ha h.listening
  refine ⟨hlistening, fun ho => ?_⟩
  rw [← h.decoder (hopen ho)]
  exact congrArg (·.1.decoder) (step_apart ha s s.decoder)

end Supervisor

end DebugAdapter.Debuggee
