import DebugAdapter.Proofs.Bytes
import DebugAdapter.Proofs.Frontend.Header

namespace DebugAdapter.Frontend.Decoder

/-- Frames that were taken, the error if one was refused, and what is left. -/
abbrev Taken := List Incoming × Option FrameError × Decoder

variable {d d' : Decoder} {item : Incoming} {e : FrameError} {length : Nat} {buffer : Bytes}

theorem feed_nil (d : Decoder) : d.feed [] = d := by
  simp [feed]

theorem feed_append (d : Decoder) (first second : Bytes) :
    d.feed (first ++ second) = (d.feed first).feed second := by
  simp [feed]

theorem takeBody_item (ht : takeBody length buffer = .item item d') :
    ∃ body rest, Bytes.splitExact? length buffer = some (body, rest) ∧
      item = .ofBody body ∧ d' = ⟨none, rest⟩ := by
  unfold takeBody at ht
  cases hs : Bytes.splitExact? length buffer with
  | none =>
    rw [hs] at ht
    cases ht
  | some cut =>
    rw [hs] at ht
    cases ht
    exact ⟨_, _, rfl, rfl, rfl⟩

theorem takeBody_wait (ht : takeBody length buffer = .wait d') :
    d' = ⟨some length, buffer⟩ ∧ Bytes.splitExact? length buffer = none := by
  unfold takeBody at ht
  cases hs : Bytes.splitExact? length buffer with
  | none =>
    rw [hs] at ht
    cases ht
    exact ⟨rfl, rfl⟩
  | some cut =>
    rw [hs] at ht
    cases ht

theorem takeBody_not_failed : takeBody length buffer ≠ .failed e d' := by
  unfold takeBody
  split <;> simp

theorem takeBody_feed (ht : takeBody length buffer = .item item d') (chunk : Bytes) :
    takeBody length (buffer ++ chunk) = .item item (d'.feed chunk) := by
  obtain ⟨body, rest, hs, rfl, rfl⟩ := takeBody_item ht
  simp [takeBody, Bytes.splitExact_append hs, feed]

theorem next_of_header {block rest : Bytes} (ha : d.awaiting = none)
    (hc : Bytes.cutBefore headerEnd d.buffer = some (block, rest)) :
    d.next = match Header.bodyLength block with
      | .error e => .failed e d
      | .ok length => takeBody length rest := by
  cases hb : Header.bodyLength block <;> simp [next, ha, hc, hb]

theorem takeBody_whole (body rest : Bytes) :
    takeBody body.length (body ++ rest) = .item (.ofBody body) (feed {} rest) := by
  rw [takeBody, Bytes.splitExact_some_iff.mpr ⟨rfl, rfl⟩]
  rfl

/-- A frame at the front of a stream is taken off with exactly its bytes. -/
theorem next_whole {block body rest : Bytes}
    (hc : Bytes.cutBefore headerEnd buffer = some (block, body ++ rest))
    (hb : Header.bodyLength block = .ok body.length) :
    (feed {} buffer).next = .item (.ofBody body) (feed {} rest) := by
  have hnext := next_of_header (d := feed {} buffer) rfl hc
  rw [hb] at hnext
  exact hnext.trans (takeBody_whole body rest)

/-- All that looking for a frame can come to where no body is awaited. -/
theorem next_header (ha : d.awaiting = none) :
    (∃ block rest, Bytes.cutBefore headerEnd d.buffer = some (block, rest) ∧
      ((∃ e, Header.bodyLength block = .error e ∧ d.next = .failed e d) ∨
        ∃ length, Header.bodyLength block = .ok length ∧ d.next = takeBody length rest)) ∨
    (Bytes.cutBefore headerEnd d.buffer = none ∧
      ((maxHeaderBytes < d.buffer.length ∧ d.next = .failed .headerTooLong d) ∨
        (d.buffer.length ≤ maxHeaderBytes ∧ d.next = .wait d))) := by
  cases hc : Bytes.cutBefore headerEnd d.buffer with
  | none =>
    right
    refine ⟨rfl, ?_⟩
    by_cases hl : maxHeaderBytes < d.buffer.length
    · exact Or.inl ⟨hl, by simp [next, ha, hc, hl]⟩
    · exact Or.inr ⟨Nat.le_of_not_lt hl, by simp [next, ha, hc, hl]⟩
  | some cut =>
    left
    obtain ⟨block, rest⟩ := cut
    refine ⟨block, rest, rfl, ?_⟩
    have hnext := next_of_header ha hc
    cases hb : Header.bodyLength block with
    | error e => exact Or.inl ⟨e, rfl, by rw [hnext, hb]⟩
    | ok length => exact Or.inr ⟨length, rfl, by rw [hnext, hb]⟩

theorem next_body (ha : d.awaiting = some length) : d.next = takeBody length d.buffer := by
  simp [next, ha]

/-- Whatever is found in a header stays where it is when more bytes come. -/
theorem next_feed_of_header {block rest : Bytes} (ha : d.awaiting = none)
    (hc : Bytes.cutBefore headerEnd d.buffer = some (block, rest)) (chunk : Bytes) :
    (d.feed chunk).next = match Header.bodyLength block with
      | .error e => .failed e (d.feed chunk)
      | .ok length => takeBody length (rest ++ chunk) :=
  next_of_header (d := d.feed chunk) ha (Bytes.cutBefore_append hc chunk)

/-- An item that can be decoded does not change when more bytes arrive. -/
theorem next_item_feed (hi : d.next = .item item d') (chunk : Bytes) :
    (d.feed chunk).next = .item item (d'.feed chunk) := by
  cases ha : d.awaiting with
  | some length =>
    rw [next_body ha] at hi
    rw [next_body (d := d.feed chunk) ha]
    exact takeBody_feed hi chunk
  | none =>
    rcases next_header ha with ⟨block, rest, hc, ⟨_, _, hn⟩ | ⟨length, hb, hn⟩⟩ |
      ⟨_, ⟨_, hn⟩ | ⟨_, hn⟩⟩
    · cases hn.symm.trans hi
    · rw [next_feed_of_header ha hc, hb]
      exact takeBody_feed (hn.symm.trans hi) chunk
    · cases hn.symm.trans hi
    · cases hn.symm.trans hi

/-- A decoder that waits has lost nothing: with more bytes it goes on as it would have. -/
theorem next_wait_feed (hw : d.next = .wait d') (chunk : Bytes) :
    (d.feed chunk).next = (d'.feed chunk).next := by
  cases ha : d.awaiting with
  | some length =>
    rw [next_body ha] at hw
    obtain ⟨rfl, _⟩ := takeBody_wait hw
    simp [next, feed, ha]
  | none =>
    rcases next_header ha with ⟨block, rest, hc, ⟨_, _, hn⟩ | ⟨length, hb, hn⟩⟩ |
      ⟨_, ⟨_, hn⟩ | ⟨_, hn⟩⟩
    · cases hn.symm.trans hw
    · obtain ⟨rfl, _⟩ := takeBody_wait (hn.symm.trans hw)
      rw [next_feed_of_header ha hc, hb]
      rfl
    · cases hn.symm.trans hw
    · cases hn.symm.trans hw
      rfl

/-- A decoder that fails stays as it is. It has a header that is refused, or an unfinished one that
is too long. -/
theorem next_failed (hf : d.next = .failed e d') :
    d' = d ∧ d.awaiting = none ∧
      ((∃ block rest, Bytes.cutBefore headerEnd d.buffer = some (block, rest) ∧
        Header.bodyLength block = .error e) ∨
      (e = .headerTooLong ∧ Bytes.cutBefore headerEnd d.buffer = none ∧
        maxHeaderBytes < d.buffer.length)) := by
  cases ha : d.awaiting with
  | some length =>
    rw [next_body ha] at hf
    exact absurd hf takeBody_not_failed
  | none =>
    rcases next_header ha with ⟨block, rest, hc, ⟨_, hb, hn⟩ | ⟨length, hb, hn⟩⟩ |
      ⟨hc, ⟨hl, hn⟩ | ⟨_, hn⟩⟩
    · cases hn.symm.trans hf
      exact ⟨rfl, rfl, Or.inl ⟨block, rest, hc, hb⟩⟩
    · exact absurd (hn.symm.trans hf) takeBody_not_failed
    · cases hn.symm.trans hf
      exact ⟨rfl, rfl, Or.inr ⟨rfl, hc, hl⟩⟩
    · cases hn.symm.trans hf

/-- A decoder that waits holds an unfinished header, or an unfinished body whose header it has taken
off now or before. -/
theorem next_wait (hw : d.next = .wait d') :
    (d' = d ∧ d.awaiting = none ∧ d.buffer.length ≤ maxHeaderBytes) ∨
      ∃ length, d'.awaiting = some length ∧ d'.buffer.length < length ∧
        (d' = d ∨ (d.awaiting = none ∧ d'.buffer.length < d.buffer.length ∧
          ∃ block, Header.bodyLength block = .ok length)) := by
  cases ha : d.awaiting with
  | some length =>
    rw [next_body ha] at hw
    obtain ⟨rfl, hs⟩ := takeBody_wait hw
    exact Or.inr ⟨length, rfl, Bytes.splitExact_none_iff.mp hs, Or.inl (by rw [← ha])⟩
  | none =>
    rcases next_header ha with ⟨block, rest, hc, ⟨_, _, hn⟩ | ⟨length, hb, hn⟩⟩ |
      ⟨_, ⟨_, hn⟩ | ⟨hl, hn⟩⟩
    · cases hn.symm.trans hw
    · obtain ⟨rfl, hs⟩ := takeBody_wait (hn.symm.trans hw)
      have hcut := congrArg List.length (Bytes.cutBefore_some_iff.mp hc).1
      have hmark : headerEnd.length = 4 := rfl
      simp only [List.length_append] at hcut
      refine Or.inr ⟨length, rfl, Bytes.splitExact_none_iff.mp hs, Or.inr ⟨rfl, ?_, block, hb⟩⟩
      simp only
      omega
    · cases hn.symm.trans hw
    · cases hn.symm.trans hw
      exact Or.inl ⟨rfl, rfl, hl⟩

/-- A frame is taken off with what is before its body, if its header was not taken off already. -/
theorem next_item (hi : d.next = .item item d') :
    ∃ before body rest, item = .ofBody body ∧ d' = ⟨none, rest⟩ ∧
      d.buffer = before ++ (body ++ rest) ∧
      (d.awaiting = some body.length ∨ (d.awaiting = none ∧ 0 < before.length)) := by
  cases ha : d.awaiting with
  | some length =>
    rw [next_body ha] at hi
    obtain ⟨body, rest, hs, rfl, rfl⟩ := takeBody_item hi
    obtain ⟨hb, rfl⟩ := Bytes.splitExact_some_iff.mp hs
    exact ⟨[], body, rest, rfl, rfl, hb, Or.inl rfl⟩
  | none =>
    rcases next_header ha with ⟨block, after, hc, ⟨_, _, hn⟩ | ⟨length, _, hn⟩⟩ |
      ⟨_, ⟨_, hn⟩ | ⟨_, hn⟩⟩
    · cases hn.symm.trans hi
    · obtain ⟨body, rest, hs, rfl, rfl⟩ := takeBody_item (hn.symm.trans hi)
      obtain ⟨rfl, _⟩ := Bytes.splitExact_some_iff.mp hs
      have hb := (Bytes.cutBefore_some_iff.mp hc).1
      rw [← List.append_assoc] at hb
      refine ⟨block ++ headerEnd, body, rest, rfl, rfl, hb, Or.inr ⟨rfl, ?_⟩⟩
      rw [List.length_append]
      exact Nat.lt_of_lt_of_le (by decide : 0 < headerEnd.length) (Nat.le_add_left _ _)
    · cases hn.symm.trans hi
    · cases hn.symm.trans hi

theorem next_of_wait (hw : d.next = .wait d') : d'.next = .wait d' := by
  have h := next_wait_feed hw []
  rw [feed_nil, feed_nil] at h
  exact h.symm.trans hw

def work (d : Decoder) : Nat :=
  d.buffer.length + if d.awaiting.isSome then 1 else 0

theorem work_feed (d : Decoder) (chunk : Bytes) : (d.feed chunk).work = d.work + chunk.length := by
  rw [work, feed, List.length_append]
  exact Nat.add_right_comm ..

/-- Each item that is decoded leaves less to be done, so a drain ends. -/
theorem next_item_work (hi : d.next = .item item d') : d'.work < d.work := by
  obtain ⟨before, body, rest, _, rfl, hb, ha | ⟨ha, hbefore⟩⟩ := next_item hi <;>
    simp only [work, ha, hb, List.length_append, Option.isSome_none, Option.isSome_some, if_true,
      Bool.false_eq_true, if_false] <;>
    omega

theorem next_wait_work (hw : d.next = .wait d') : d'.work ≤ d.work := by
  rcases next_wait hw with ⟨rfl, _⟩ | ⟨length, ha', _, rfl | ⟨ha, hlt, _⟩⟩
  · exact Nat.le_refl _
  · exact Nat.le_refl _
  · simp only [work, ha, ha', Option.isSome_none, Option.isSome_some, if_true, Bool.false_eq_true,
      if_false]
    omega

/-- A decoder that waits lacks something. -/
theorem lacking_pos (hw : d.next = .wait d') : 0 < d'.lacking := by
  rcases next_wait hw with ⟨rfl, ha, _⟩ | ⟨length, ha, hlt, _⟩
  · simp [lacking, ha]
  · simp only [lacking, ha]
    omega

/-- Taking frames one after the other: what holds where none can be taken, and of a decoder if it
holds of what the next frame leaves, holds of all. -/
@[elab_as_elim] theorem frames_induction {P : Decoder → Prop}
    (wait : ∀ d d', d.next = .wait d' → P d)
    (failed : ∀ d e, d.next = .failed e d → P d)
    (item : ∀ d item d', d.next = .item item d' → P d' → P d) (d : Decoder) : P d := by
  cases hn : d.next with
  | wait d' => exact wait d d' hn
  | failed e d' =>
    obtain ⟨rfl, _⟩ := next_failed hn
    exact failed d' e hn
  | item i d' =>
    have hwork := next_item_work hn
    exact item d i d' hn (frames_induction wait failed item d')
termination_by d.work

theorem drainFrom_done (limit : Nat) (done : List Incoming) (d : Decoder) :
    drainFrom limit done d =
      (done.reverse ++ (drainFrom limit [] d).1, (drainFrom limit [] d).2) := by
  induction limit generalizing done d with
  | zero => simp [drainFrom]
  | succ limit ih =>
    simp only [drainFrom]
    cases d.next with
    | wait d' => simp
    | failed e d' => simp
    | item i d' =>
      simp only
      rw [ih (i :: done) d', ih [i] d']
      simp

theorem drainFrom_idle (hw : d.work = 0) (limit : Nat) : drainFrom limit [] d = ([], none, d) := by
  obtain ⟨awaiting, buffer⟩ := d
  cases awaiting with
  | some length => simp [work] at hw
  | none =>
    obtain rfl : buffer = [] := List.eq_nil_of_length_eq_zero (by simpa [work] using hw)
    cases limit <;> rfl

/-- Any two limits that are not below the work that there is give the same. -/
theorem drainFrom_limit {m n : Nat} (hm : d.work ≤ m) (hn : d.work ≤ n) :
    drainFrom m [] d = drainFrom n [] d := by
  induction m generalizing d n with
  | zero =>
    have hw := Nat.eq_zero_of_le_zero hm
    rw [drainFrom_idle hw, drainFrom_idle hw]
  | succ m ih =>
    cases n with
    | zero =>
      have hw := Nat.eq_zero_of_le_zero hn
      rw [drainFrom_idle hw, drainFrom_idle hw]
    | succ n =>
      simp only [drainFrom]
      cases hd : d.next with
      | wait d' => rfl
      | failed e d' => rfl
      | item i d' =>
        have hwork := next_item_work hd
        simp only
        rw [drainFrom_done m, drainFrom_done n, ih (n := n) (by omega) (by omega)]

/-- All frames that have arrived are those that are taken until one is unfinished or refused. -/
theorem drain_eq (d : Decoder) :
    d.drain = match d.next with
      | .wait d' => ([], none, d')
      | .failed e d' => ([], some e, d')
      | .item item d' => (item :: d'.drain.1, d'.drain.2) := by
  rw [drain, drainFrom]
  cases hd : d.next with
  | wait d' => rfl
  | failed e d' => rfl
  | item i d' =>
    have hwork := next_item_work hd
    have hlimit : d.work ≤ d.buffer.length + 1 := by
      unfold work
      split <;> omega
    have hlimit' : d'.work ≤ d'.buffer.length + 1 := by
      unfold work
      split <;> omega
    simp only
    rw [drainFrom_done, drainFrom_limit (n := d'.buffer.length + 1) (by omega) hlimit']
    rfl

theorem drain_wait (hw : d.next = .wait d') : d.drain = ([], none, d') := by
  rw [drain_eq, hw]

theorem drain_failed (hf : d.next = .failed e d') : d.drain = ([], some e, d') := by
  rw [drain_eq, hf]

theorem drain_item (hi : d.next = .item item d') :
    d.drain = (item :: d'.drain.1, d'.drain.2) := by
  rw [drain_eq, hi]

/-- What comes later is taken behind what was taken before. -/
theorem drain_feed (d : Decoder) (chunk : Bytes) :
    (d.feed chunk).drain =
      (d.drain.1 ++ (d.drain.2.2.feed chunk).drain.1, (d.drain.2.2.feed chunk).drain.2) := by
  induction d using frames_induction with
  | wait d d' hn =>
    rw [drain_wait hn, drain_eq (d.feed chunk), next_wait_feed hn, ← drain_eq]
    rfl
  | failed d e hn =>
    rw [drain_failed hn]
    rfl
  | item d i d' hn ih =>
    rw [drain_item hn, drain_item (next_item_feed hn chunk), ih]
    rfl

/-- A drain without an error ends in a decoder that waits. -/
theorem drain_settled (hn : d.drain.2.1 = none) : d.drain.2.2.next = .wait d.drain.2.2 := by
  induction d using frames_induction with
  | wait d d' hw =>
    rw [drain_wait hw]
    exact next_of_wait hw
  | failed d e hf => simp [drain_failed hf] at hn
  | item d i d' hi ih =>
    rw [drain_item hi] at hn ⊢
    exact ih hn

/-- Takes what each chunk brings as soon as it has come, until a frame is refused. -/
def receive (d : Decoder) : List Bytes → Taken
  | [] => ([], none, d)
  | chunk :: chunks =>
    match (d.feed chunk).drain with
    | (items, none, d) =>
      let (more, outcome) := receive d chunks
      (items ++ more, outcome)
    | (items, some e, d) => (items, some e, d)

/-- A decoder that is fed chunk by chunk takes what it takes of the first of them at once: of all
that there are, or of those up to the first with which it fails. -/
theorem receive_eq_drain (hd : d.next = .wait d) (chunks : List Bytes) :
    ∃ arrived, arrived <+: chunks ∧ d.receive chunks = (d.feed arrived.flatten).drain ∧
      ((d.receive chunks).2.1 = none → arrived = chunks) ∧
      ∀ earlier, earlier <+: arrived → earlier ≠ arrived →
        (d.feed earlier.flatten).drain.2.1 = none := by
  induction chunks generalizing d with
  | nil =>
    refine ⟨[], List.prefix_rfl, ?_, fun _ => rfl, ?_⟩
    · rw [List.flatten_nil, feed_nil, drain_wait hd]
      rfl
    · intro earlier hp hne
      exact absurd (List.prefix_nil.mp hp) hne
  | cons chunk chunks ih =>
    have hstart : (d.feed []).drain.2.1 = none := by rw [feed_nil, drain_wait hd]
    rcases hfirst : (d.feed chunk).drain with ⟨items, error, d₁⟩
    cases error with
    | some e =>
      have hreceive : d.receive (chunk :: chunks) = (items, some e, d₁) := by
        rw [receive, hfirst]
      refine ⟨[chunk], by simp, ?_, ?_, ?_⟩
      · rw [hreceive, List.flatten_singleton, hfirst]
      · intro hnone
        simp [hreceive] at hnone
      · intro earlier hp hne
        obtain rfl : earlier = [] := by
          rcases List.prefix_cons_iff.mp hp with h | ⟨tail, rfl, ht⟩
          · exact h
          · rw [List.prefix_nil.mp ht] at hne
            exact absurd rfl hne
        exact hstart
    | none =>
      have hsettled : d₁.next = .wait d₁ := by
        have h := drain_settled (d := d.feed chunk) (by rw [hfirst])
        rwa [hfirst] at h
      have hlater (later : Bytes) : (d.feed (chunk ++ later)).drain =
          (items ++ (d₁.feed later).drain.1, (d₁.feed later).drain.2) := by
        rw [feed_append, drain_feed, hfirst]
      have hreceive : d.receive (chunk :: chunks) =
          (items ++ (d₁.receive chunks).1, (d₁.receive chunks).2) := by
        rw [receive, hfirst]
      obtain ⟨arrived, hp, he, hall, hearlier⟩ := ih hsettled
      refine ⟨chunk :: arrived, (List.cons_prefix_cons).mpr ⟨rfl, hp⟩, ?_, ?_, ?_⟩
      · rw [hreceive, List.flatten_cons, hlater, he]
      · intro hnone
        rw [hreceive] at hnone
        rw [hall hnone]
      · intro earlier hpre hne
        rcases List.prefix_cons_iff.mp hpre with rfl | ⟨tail, rfl, ht⟩
        · exact hstart
        · rw [List.flatten_cons, hlater]
          exact hearlier tail ht fun h => hne (by rw [h])

/-- A header block that is met complete while frames are taken. -/
inductive MeetsHeader : Decoder → Bytes → Prop where
  | here {d : Decoder} {block rest : Bytes} (awaiting : d.awaiting = none)
      (cut : Bytes.cutBefore headerEnd d.buffer = some (block, rest)) : MeetsHeader d block
  | later {d d' : Decoder} {item : Incoming} {block : Bytes} (taken : d.next = .item item d')
      (met : MeetsHeader d' block) : MeetsHeader d block

/-- Where no header is met that could have been too long when its last bytes were missing, a decoder
that fails would have failed in the same way with more bytes. -/
theorem drain_failed_feed {chunk : Bytes} (hf : d.drain.2.1 = some e)
    (hshort : ∀ block, MeetsHeader (d.feed chunk) block → block.length ≤ 8189) :
    (d.feed chunk).drain.1 = d.drain.1 ∧ (d.feed chunk).drain.2.1 = some e := by
  induction d using frames_induction with
  | wait d d' hw => simp [drain_wait hw] at hf
  | failed d e' hn =>
    obtain ⟨_, ha, ⟨block, rest, hc, hb⟩ | ⟨rfl, hc, hl⟩⟩ := next_failed hn
    · have hnext := next_feed_of_header ha hc chunk
      rw [hb] at hnext
      rw [drain_failed hn] at hf ⊢
      rw [drain_failed hnext]
      exact ⟨rfl, hf⟩
    · rcases next_header (d := d.feed chunk) ha with ⟨block, rest, hcut, _⟩ |
        ⟨_, ⟨_, hnext⟩ | ⟨hle, _⟩⟩
      · have hblock := hshort block (.here ha hcut)
        have hbeyond := Bytes.cutBefore_beyond hc hcut
        have hmark : headerEnd.length = 4 := rfl
        have hmax : maxHeaderBytes = 8192 := rfl
        omega
      · rw [drain_failed hn] at hf ⊢
        rw [drain_failed hnext]
        exact ⟨rfl, hf⟩
      · simp only [feed, List.length_append] at hle
        omega
  | item d i d' hi ih =>
    have hnext := next_item_feed hi chunk
    rw [drain_item hi] at hf ⊢
    rw [drain_item hnext]
    obtain ⟨hitems, herror⟩ := ih hf fun block hm => hshort block (.later hnext hm)
    exact ⟨by rw [hitems], herror⟩

/-- Where all headers are short, a stream in chunks is decoded as if it had come at once. -/
theorem receive_of_short (chunks : List Bytes)
    (hshort : ∀ block, MeetsHeader (feed {} chunks.flatten) block → block.length ≤ 8189) :
    let all := (feed {} chunks.flatten).drain
    let r := receive {} chunks
    r.1 = all.1 ∧ r.2.1 = all.2.1 ∧ (r.2.1 = none → r.2.2 = all.2.2) := by
  intro all r
  obtain ⟨arrived, hp, he, hall, _⟩ := receive_eq_drain (d := {}) rfl chunks
  obtain ⟨rest, rfl⟩ := hp
  cases hr : r.2.1 with
  | none =>
    have hsame : r = all := by rw [show r = _ from he, hall hr]
    exact ⟨by rw [hsame], by rw [← hr, hsame], fun _ => by rw [hsame]⟩
  | some e =>
    rw [List.flatten_append, feed_append] at hshort
    have hfailed : (feed {} arrived.flatten).drain.2.1 = some e := he ▸ hr
    obtain ⟨hitems, herror⟩ := drain_failed_feed hfailed hshort
    rw [← feed_append, ← List.flatten_append] at hitems herror
    exact ⟨(congrArg Prod.fst he).trans hitems.symm, herror.symm, by simp⟩

/-- The headers that are met are that of the frame at the front and those behind the frame. -/
theorem meets_whole {block body rest other : Bytes}
    (hc : Bytes.cutBefore headerEnd buffer = some (block, body ++ rest))
    (hb : Header.bodyLength block = .ok body.length) (hm : MeetsHeader (feed {} buffer) other) :
    other = block ∨ MeetsHeader (feed {} rest) other := by
  cases hm with
  | here _ cut =>
    cases hc.symm.trans cut
    exact Or.inl rfl
  | later taken met =>
    cases (next_whole hc hb).symm.trans taken
    exact Or.inr met

/-- What is met stays met when more comes. -/
theorem MeetsHeader.feed {block : Bytes} (hm : MeetsHeader d block) (chunk : Bytes) :
    MeetsHeader (d.feed chunk) block := by
  induction hm with
  | here awaiting cut => exact .here awaiting (Bytes.cutBefore_append cut chunk)
  | later taken _ ih => exact .later (next_item_feed taken chunk) ih

theorem MeetsHeader.length_le {block : Bytes} (hm : MeetsHeader d block) :
    block.length ≤ d.buffer.length := by
  induction hm with
  | here _ cut =>
    have h := congrArg List.length (Bytes.cutBefore_some_iff.mp cut).1
    rw [List.length_append] at h
    omega
  | @later d d' _ _ taken _ ih =>
    have hwork := next_item_work taken
    have hle : d.work ≤ d.buffer.length + 1 := by
      unfold work
      split <;> omega
    have hge : d'.buffer.length ≤ d'.work := Nat.le_add_right _ _
    omega

/-- A drain with an error ends in a decoder that makes it again. -/
theorem drain_refused (hf : d.drain.2.1 = some e) : d.drain.2.2.next = .failed e d.drain.2.2 := by
  induction d using frames_induction with
  | wait d d' hw => simp [drain_wait hw] at hf
  | failed d e' hn =>
    rw [drain_failed hn] at hf ⊢
    cases hf
    exact hn
  | item d i d' hi ih =>
    rw [drain_item hi] at hf ⊢
    exact ih hf

theorem drain_not_unfinished : d.drain.2.1 ≠ some .unfinishedFrame := by
  intro hf
  obtain ⟨_, _, ⟨_, _, _, hb⟩ | ⟨he, _⟩⟩ := next_failed (drain_refused hf)
  · exact (Header.bodyLength_error hb).2 rfl
  · cases he

/-- A stream whose complete headers are short is decoded alike however it is cut into chunks: to the
same frames, and then to the same error in its headers, or to none and the same rest. -/
theorem frames_decoded_in_any_chunks (stream : Bytes)
    (hshort : ∀ block, MeetsHeader { buffer := stream } block → block.length ≤ 8189)
    (first second : List Bytes) (hfirst : first.flatten = stream)
    (hsecond : second.flatten = stream) :
    let a := receive {} first
    let b := receive {} second
    a.1 = b.1 ∧ a.2.1 = b.2.1 ∧ (a.2.1 = none → a.2.2 = b.2.2) ∧
      a.2.1 ≠ some .unfinishedFrame := by
  intro a b
  subst hfirst
  obtain ⟨hitems, herror, hrest⟩ := receive_of_short first hshort
  obtain ⟨hitems', herror', hrest'⟩ := receive_of_short second (hsecond ▸ hshort)
  rw [hsecond] at hitems' herror' hrest'
  refine ⟨hitems.trans hitems'.symm, herror.trans herror'.symm, fun hn => ?_, ?_⟩
  · have hn' : b.2.1 = none := herror'.trans (herror.symm.trans hn)
    exact (hrest hn).trans (hrest' hn').symm
  · intro hunfinished
    exact drain_not_unfinished (herror.symm.trans hunfinished)

/-- Two frames, cut within the end of the first header and within a body that looks like one, and a
header without a length. -/
def parted : List Bytes :=
  [.ofString "Content-Length: 2\r\n\r", .ofString "\n\x7b\x7dContent-Length: 6\r\n\r\na\r\n",
    .ofString "\r\nbLength: 1\r\n\r\n"]

/-- A frame that arrives in two parts is decoded as the whole would be. -/
theorem parted_decoded_as_whole :
    let a := receive {} parted
    let b := receive {} [parted.flatten]
    a.1 = b.1 ∧ a.2.1 = b.2.1 ∧ a.2.1 = some .missingLength := by
  intro a b
  have hshort : ∀ block, MeetsHeader { buffer := parted.flatten } block → block.length ≤ 8189 := by
    intro block hm
    have hlen : parted.flatten.length ≤ 8189 := by decide
    exact Nat.le_trans hm.length_le hlen
  have h := frames_decoded_in_any_chunks parted.flatten hshort parted [parted.flatten] rfl
    (by simp)
  exact ⟨h.1, h.2.1, rfl⟩

end DebugAdapter.Frontend.Decoder
