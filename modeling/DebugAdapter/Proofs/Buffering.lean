import DebugAdapter.Proofs.Debuggee.Lines
import DebugAdapter.Proofs.Frontend.Arrival

namespace DebugAdapter

inductive Use where
  | feed (chunk : Bytes)
  | decode

namespace Frontend

theorem Header.bodyLength_le {block : Bytes} {length : Nat} (hb : bodyLength block = .ok length) :
    length ≤ maxBodyBytes := by
  unfold bodyLength at hb
  split at hb
  · cases hb
  · split at hb
    · cases hb
    · cases hb
    · split at hb
      · cases hb
      · rename_i hl
        cases hb
        exact Nat.le_of_not_lt hl

def Progress.rest : Progress → Decoder
  | item _ d => d
  | wait d => d
  | failed _ d => d

namespace Decoder

variable {d d' : Decoder} {item : Incoming}

def use (d : Decoder) : Use → Decoder
  | .feed chunk => d.feed chunk
  | .decode => d.next.rest

def after (uses : List Use) : Decoder :=
  uses.foldl use {}

/-- A body that is awaited is not empty and not too large. -/
def Sound (d : Decoder) : Prop :=
  ∀ length, d.awaiting = some length → 0 < length ∧ length ≤ maxBodyBytes

/-- All that a decoder holds that waits: an unfinished header, or an unfinished body. -/
theorem next_holds (hd : d.Sound) (hw : d.next = .wait d') :
    (d'.awaiting = none ∧ d'.buffer.length ≤ maxHeaderBytes) ∨
      ∃ length, d'.awaiting = some length ∧ length ≤ maxBodyBytes ∧ d'.buffer.length < length := by
  rcases next_wait hw with ⟨rfl, ha, hl⟩ | ⟨length, hlength, hlt, rfl | ⟨_, _, block, hb⟩⟩
  · exact Or.inl ⟨ha, hl⟩
  · exact Or.inr ⟨length, hlength, (hd length hlength).2, hlt⟩
  · exact Or.inr ⟨length, hlength, Header.bodyLength_le hb, hlt⟩

/-- A frame leaves fewer bytes, also where only its body was still to be taken. -/
theorem next_item_shorter (hd : d.Sound) (hi : d.next = .item item d') :
    d'.buffer.length < d.buffer.length := by
  obtain ⟨before, body, rest, _, rfl, hb, ha | ⟨_, hbefore⟩⟩ := next_item hi
  · have hbody := (hd body.length ha).1
    rw [hb]
    simp only [List.length_append]
    omega
  · rw [hb]
    simp only [List.length_append]
    omega

/-- One step of decoding keeps an awaited body within bounds, whatever the step comes to. -/
theorem Sound.next (hd : d.Sound) : d.next.rest.Sound := by
  cases hn : d.next with
  | item item d' =>
    obtain ⟨_, _, _, _, rfl, _⟩ := next_item hn
    intro length ha
    cases ha
  | wait d' =>
    intro length ha
    rcases next_holds hd hn with ⟨hnone, _⟩ | ⟨n, hn, hle, hlt⟩
    · cases hnone.symm.trans ha
    · cases hn.symm.trans ha
      exact ⟨Nat.zero_lt_of_lt hlt, hle⟩
  | failed e d' =>
    obtain ⟨rfl, _⟩ := next_failed hn
    exact hd

/-- Whatever is fed and decoded, in whatever order, an awaited body is within bounds. -/
theorem after_sound (uses : List Use) : (after uses).Sound := by
  induction uses using List.reverseRecOn with
  | nil =>
    intro length ha
    cases ha
  | append_singleton uses u ih =>
    rw [after, List.foldl_append]
    cases u with
    | feed chunk => exact ih
    | decode => exact ih.next

/-- A decoder is asked until it has nothing to give or fails: the frames, the error if it fails, and
what it keeps. -/
inductive Drains : Decoder → List Incoming → Option FrameError → Decoder → Prop
  | nothing {d d' : Decoder} : d.next = .wait d' → Drains d [] none d'
  | failed {d d' : Decoder} {e : FrameError} : d.next = .failed e d' → Drains d [] (some e) d'
  | item {d d' rest : Decoder} {item : Incoming} {items : List Incoming}
      {error : Option FrameError} :
      d.next = .item item d' → Drains d' items error rest → Drains d (item :: items) error rest

/-- The loop of the program is that, and it ends. -/
theorem drains (d : Decoder) : d.Drains d.drain.1 d.drain.2.1 d.drain.2.2 := by
  induction d using frames_induction with
  | wait d d' hn =>
    rw [drain_wait hn]
    exact .nothing hn
  | failed d e hn =>
    rw [drain_failed hn]
    exact .failed hn
  | item d item d' hn ih =>
    rw [drain_item hn]
    exact .item hn ih

theorem Drains.length_le {items : List Incoming} {error : Option FrameError} {rest : Decoder}
    (hd : d.Sound) (h : d.Drains items error rest) : items.length ≤ d.buffer.length := by
  induction h with
  | nothing => exact Nat.zero_le _
  | failed => exact Nat.zero_le _
  | item hn _ ih =>
    have hshorter := next_item_shorter hd hn
    have hsound := hd.next
    rw [hn] at hsound
    have hle := ih hsound
    rw [List.length_cons]
    omega

end Decoder
end Frontend

namespace Debuggee.LineDecoder

variable {d d' : LineDecoder} {output : Output}

def decode (d : LineDecoder) : Option Output × LineDecoder :=
  match _ : d.next with
  | .wait d' => (none, d')
  | .line (some output) d' => (some output, d')
  | .line none d' => decode d'
termination_by d.work
decreasing_by exact (next_line ‹_›).2

theorem decode_eq (d : LineDecoder) :
    d.decode = match d.next with
      | .wait d' => (none, d')
      | .line (some output) d' => (some output, d')
      | .line none d' => d'.decode := by
  rw [decode]
  split <;> simp_all

/-- Taking lines one after the other: what holds where none can be taken, and of a decoder if it
holds of what the next line leaves, holds of all. -/
@[elab_as_elim] theorem lines_induction {P : LineDecoder → Prop}
    (wait : ∀ d d', d.next = .wait d' → P d)
    (line : ∀ d output d', d.next = .line output d' → P d' → P d) (d : LineDecoder) : P d := by
  cases hn : d.next with
  | wait d' => exact wait d d' hn
  | line output d' =>
    have hwork := (next_line hn).2
    exact line d output d' hn (lines_induction wait line d')
termination_by d.work

theorem decode_wait (hn : d.next = .wait d') : d.decode = (none, d') := by
  rw [decode_eq, hn]

theorem decode_blank (hn : d.next = .line none d') : d.decode = d'.decode := by
  rw [decode_eq, hn]

theorem decode_output (hn : d.next = .line (some output) d') : d.decode = (some output, d') := by
  rw [decode_eq, hn]

/-- Once no output is left, what is kept is at most an unfinished line that is not too long. -/
theorem decode_settled (hd : d.decode = (none, d')) : d'.Settled := by
  induction d using lines_induction with
  | wait d e hn =>
    rw [decode_wait hn] at hd
    cases hd
    exact (next_wait hn).2
  | line d o e hn ih =>
    cases o with
    | none =>
      rw [decode_blank hn] at hd
      exact ih hd
    | some o =>
      rw [decode_output hn] at hd
      cases hd

/-- Each output that is taken leaves less to be done, so a drain ends. -/
theorem decode_work (hd : d.decode = (some output, d')) : d'.work < d.work := by
  induction d using lines_induction with
  | wait d e hn =>
    rw [decode_wait hn] at hd
    cases hd
  | line d o e hn ih =>
    have hwork := (next_line hn).2
    cases o with
    | none =>
      rw [decode_blank hn] at hd
      exact Nat.lt_trans (ih hd) hwork
    | some o =>
      rw [decode_output hn] at hd
      cases hd
      exact hwork

theorem Settled.length_le (hs : d.Settled) : d.buffer.length ≤ maxLineBytes := by
  unfold Settled at hs
  split at hs
  · rw [hs]
    exact Nat.zero_le _
  · exact hs.2

/-- That a line is too long is said before any of its bytes is given up. So one call alone may leave
as many bytes as there were, and two may not. -/
theorem decode_twice_shorter {second : Output} {d'' : LineDecoder}
    (hfirst : d.decode = (some output, d')) (hsecond : d'.decode = (some second, d'')) :
    d''.buffer.length < d.buffer.length := by
  have hw := decode_work hfirst
  have hw' := decode_work hsecond
  have hle : d.work ≤ 2 * d.buffer.length + 1 := by
    unfold work
    split <;> omega
  have hge : 2 * d''.buffer.length ≤ d''.work := Nat.le_add_right _ _
  omega

def use (d : LineDecoder) : Use → LineDecoder
  | .feed chunk => d.feed chunk
  | .decode => d.decode.2

def after (uses : List Use) : LineDecoder :=
  uses.foldl use {}

/-- A decoder is asked until it has nothing to give: what the lines say, and what it keeps. -/
inductive Drains : LineDecoder → List Output → LineDecoder → Prop
  | nothing {d d' : LineDecoder} : d.decode = (none, d') → Drains d [] d'
  | output {d d' rest : LineDecoder} {output : Output} {outputs : List Output} :
      d.decode = (some output, d') → Drains d' outputs rest → Drains d (output :: outputs) rest

theorem Drains.blank {outputs : List Output} {rest : LineDecoder} (hn : d.next = .line none d')
    (h : d'.Drains outputs rest) : d.Drains outputs rest := by
  cases h with
  | nothing hd => exact .nothing ((decode_blank hn).trans hd)
  | output hd hrest => exact .output ((decode_blank hn).trans hd) hrest

/-- The loop of the program is that, and it ends. -/
theorem drains (d : LineDecoder) : d.Drains d.drain.1 d.drain.2 := by
  induction d using lines_induction with
  | wait d d' hn =>
    rw [drain_eq, hn]
    exact .nothing (decode_wait hn)
  | line d o d' hn ih =>
    rw [drain_eq, hn]
    cases o with
    | none => exact .blank hn ih
    | some output => exact .output (decode_output hn) ih

theorem Drains.length_le {outputs : List Output} {rest : LineDecoder} (h : d.Drains outputs rest) :
    outputs.length ≤ d.work := by
  induction h with
  | nothing => exact Nat.zero_le _
  | output hd _ ih =>
    have hwork := decode_work hd
    rw [List.length_cons]
    omega

end Debuggee.LineDecoder

open Frontend Debuggee

/-- However the two decoders were used, one that waits for more bytes holds no more than an
unfinished header, an unfinished body of a frame or an unfinished line may have. Each frame leaves
fewer bytes, and so do any two lines, so that no more of them are taken than there were bytes, or
twice as many and one, until a decoder has nothing to give. -/
theorem buffers_bounded_and_drains_end (uses : List Use) :
    let frames := Decoder.after uses
    let lines := LineDecoder.after uses
    (∀ d, frames.next = .wait d →
      (d.awaiting = none ∧ d.buffer.length ≤ 8192) ∨
        ∃ length, d.awaiting = some length ∧ length ≤ 16777216 ∧ d.buffer.length < length) ∧
    (∀ d, lines.decode = (none, d) → d.buffer.length ≤ 8388608) ∧
    (∀ item d, frames.next = .item item d → d.buffer.length < frames.buffer.length) ∧
    (∀ first d second d', lines.decode = (some first, d) → d.decode = (some second, d') →
      d'.buffer.length < lines.buffer.length) ∧
    (∃ items error d, frames.Drains items error d ∧ frames.drain = (items, error, d) ∧
      items.length ≤ frames.buffer.length) ∧
    ∃ outputs d, lines.Drains outputs d ∧ lines.drain = (outputs, d) ∧
      outputs.length ≤ 2 * lines.buffer.length + 1 := by
  intro frames lines
  have hsound : frames.Sound := Decoder.after_sound uses
  refine ⟨?_, ?_, ?_, ?_, ?_, ?_⟩
  · intro d hw
    exact Decoder.next_holds hsound hw
  · intro d hd
    exact (LineDecoder.decode_settled hd).length_le
  · intro item d hi
    exact Decoder.next_item_shorter hsound hi
  · intro first d second d' hfirst hsecond
    exact LineDecoder.decode_twice_shorter hfirst hsecond
  · exact ⟨_, _, _, frames.drains, rfl, frames.drains.length_le hsound⟩
  · refine ⟨_, _, lines.drains, rfl, Nat.le_trans lines.drains.length_le ?_⟩
    unfold LineDecoder.work
    split <;> omega

/-- A frame without the end of its body. As lines it is one that is no record, a blank one and one
that is no text. -/
def halfFrame : Bytes :=
  Bytes.ofString "Content-Length: 5\r\n\r\n" ++ [0xFF, 0x0A]

theorem half_frame_kept :
    let frames := Decoder.after [.feed halfFrame]
    let lines := LineDecoder.after [.feed halfFrame]
    (∃ d length, frames.next = .wait d ∧ d.awaiting = some length ∧ length ≤ 16777216 ∧
      d.buffer.length < length) ∧
    ∃ first d second d', lines.decode = (some first, d) ∧ d.decode = (some second, d') ∧
      d'.buffer.length < lines.buffer.length := by
  intro frames lines
  obtain ⟨hholds, _, _, hshorter, _⟩ := buffers_bounded_and_drains_end [.feed halfFrame]
  constructor
  · have hw : frames.next = .wait ⟨some 5, [0xFF, 0x0A]⟩ := rfl
    rcases hholds _ hw with ⟨hnone, _⟩ | ⟨length, ha, hle, hlt⟩
    · cases hnone
    · exact ⟨_, length, hw, ha, hle, hlt⟩
  · obtain ⟨reason, hfirst⟩ : ∃ reason, lines.next =
        .line (some (.malformed "Content-Length: 5" reason)) ⟨false, [0x0D, 0x0A, 0xFF, 0x0A]⟩ :=
      ⟨_, rfl⟩
    have hblank : LineDecoder.next ⟨false, [0x0D, 0x0A, 0xFF, 0x0A]⟩ =
        .line none ⟨false, [0xFF, 0x0A]⟩ := rfl
    have hsecond : LineDecoder.next ⟨false, [0xFF, 0x0A]⟩ =
        .line (some (.malformed "" .notText)) {} := rfl
    have hd := LineDecoder.decode_output hfirst
    have hd' := (LineDecoder.decode_blank hblank).trans (LineDecoder.decode_output hsecond)
    exact ⟨_, _, _, _, hd, hd', hshorter _ _ _ _ hd hd'⟩

end DebugAdapter
