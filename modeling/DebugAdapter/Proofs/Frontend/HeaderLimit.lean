import DebugAdapter.Proofs.Frontend.Arrival

namespace DebugAdapter.Frontend.Decoder

/-- A chunk ends where more of the header has come than is waited for, and not all of it. -/
def SeenUnfinished (front block : Bytes) (chunks : List Bytes) : Prop :=
  ∃ arrived, arrived <+: chunks ∧ front.length + maxHeaderBytes < arrived.flatten.length ∧
    arrived.flatten.length < front.length + block.length + headerEnd.length

/-- What is taken behind `items` is what a header says: it is refused for that, or its body is
awaited, or its frame comes next. -/
inductive Judged (items : List Incoming) (block rest : Bytes) : Taken → Prop where
  | refused {e : FrameError} {d : Decoder} (announced : Header.bodyLength block = .error e) :
    Judged items block rest (items, some e, d)
  | awaited {length : Nat} (announced : Header.bodyLength block = .ok length)
      (missing : rest.length < length) : Judged items block rest (items, none, ⟨some length, rest⟩)
  | delivered {body after : Bytes} {more : List Incoming} {outcome : Option FrameError × Decoder}
      (announced : Header.bodyLength block = .ok body.length) (arrived : rest = body ++ after) :
    Judged items block rest (items ++ .ofBody body :: more, outcome)

section Judged

variable {items : List Incoming} {block rest : Bytes} {taken : Taken}

theorem Judged.behind (hj : Judged [] block rest taken) (items : List Incoming) :
    Judged items block rest (items ++ taken.1, taken.2) := by
  cases hj with
  | refused announced =>
    rw [List.append_nil]
    exact .refused announced
  | awaited announced missing =>
    rw [List.append_nil]
    exact .awaited announced missing
  | delivered announced arrived => exact .delivered announced arrived

/-- What comes behind a header that was judged changes nothing of that, unless its body is
awaited. -/
theorem Judged.extend (hj : Judged items block rest taken) {more : Bytes}
    (hmore : taken.2.1 = none → more = []) : Judged items block (rest ++ more) taken := by
  cases hj with
  | refused announced => exact .refused announced
  | awaited announced missing =>
    obtain rfl : more = [] := hmore rfl
    rw [List.append_nil]
    exact .awaited announced missing
  | delivered announced arrived => exact .delivered announced (by rw [arrived, List.append_assoc])

theorem Judged.not_tooLong (hj : Judged items block rest taken) :
    ¬ (taken.1 = items ∧ taken.2.1 = some .headerTooLong) := by
  rintro ⟨hitems, herror⟩
  cases hj with
  | refused announced =>
    cases herror
    exact (Header.bodyLength_error announced).1 rfl
  | awaited announced missing => cases herror
  | delivered announced arrived => simp at hitems

end Judged

variable {front block rest part z a : Bytes} {items : List Incoming} {chunks : List Bytes}

/-- The first bytes of a stream end before the header, within it, or behind it. -/
theorem arrived_cases (h : a ++ z = front ++ (block ++ (headerEnd ++ rest))) :
    a <+: front ∨
    (∃ part, a = front ++ part ∧ part ++ z = block ++ (headerEnd ++ rest) ∧
      part.length < block.length + headerEnd.length) ∨
    ∃ after, a = front ++ (block ++ (headerEnd ++ after)) ∧ rest = after ++ z := by
  rcases List.append_eq_append_iff.mp h with ⟨more, hfront, _⟩ | ⟨part, ha, hpart⟩
  · exact Or.inl ⟨more, hfront.symm⟩
  · right
    by_cases hlen : part.length < block.length + headerEnd.length
    · exact Or.inl ⟨part, ha, hpart.symm, hlen⟩
    · right
      rw [← List.append_assoc] at hpart
      rcases List.append_eq_append_iff.mp hpart with ⟨after, hafter, hrest⟩ | ⟨more, hmore, hz⟩
      · exact ⟨after, by rw [ha, hafter, List.append_assoc], hrest⟩
      · have hlength := congrArg List.length hmore
        simp only [List.length_append] at hlength
        obtain rfl : more = [] := List.eq_nil_of_length_eq_zero (by omega)
        exact ⟨[], by rw [ha, ← List.append_nil part, ← hmore]; simp, hz.symm⟩

theorem prefix_of_shorter {early arrived : List Bytes} (hearly : early <+: chunks)
    (harrived : arrived <+: chunks) (hlen : early.flatten.length < arrived.flatten.length) :
    early <+: arrived ∧ early ≠ arrived := by
  have hne : early ≠ arrived := by
    rintro rfl
    omega
  rcases List.prefix_or_prefix_of_prefix hearly harrived with h | ⟨_, rfl⟩
  · exact ⟨h, hne⟩
  · simp only [List.flatten_append, List.length_append] at hlen
    omega

/-- Behind whole frames, decoding starts afresh. -/
theorem drain_behind (hfront : (feed {} front).drain = (items, none, {})) (more : Bytes) :
    (feed {} (front ++ more)).drain =
      (items ++ (feed {} more).drain.1, (feed {} more).drain.2) := by
  rw [feed_append, drain_feed, hfront]

/-- No cut is made in a part of the stream that ends before the header does. -/
theorem cutBefore_within
    (hfirst : Bytes.cutBefore headerEnd (block ++ (headerEnd ++ rest)) = some (block, rest))
    (hpart : part ++ z = block ++ (headerEnd ++ rest))
    (hlen : part.length < block.length + headerEnd.length) :
    Bytes.cutBefore headerEnd part = none := by
  cases hc : Bytes.cutBefore headerEnd part with
  | none => rfl
  | some cut =>
    obtain ⟨before, after⟩ := cut
    have hcut := Bytes.cutBefore_append hc z
    rw [hpart, hfirst, Option.some.injEq, Prod.mk.injEq] at hcut
    obtain ⟨rfl, _⟩ := hcut
    have hwhole := congrArg List.length (Bytes.cutBefore_some_iff.mp hc).1
    simp only [List.length_append] at hwhole
    omega

/-- A part of a header without its end is refused exactly if it is longer than the limit. -/
theorem drain_within
    (hfirst : Bytes.cutBefore headerEnd (block ++ (headerEnd ++ rest)) = some (block, rest))
    (hfront : (feed {} front).drain = (items, none, {}))
    (hpart : part ++ z = block ++ (headerEnd ++ rest))
    (hlen : part.length < block.length + headerEnd.length) :
    (feed {} (front ++ part)).drain =
      (items, if maxHeaderBytes < part.length then some .headerTooLong else none, ⟨none, part⟩) := by
  have hnone := cutBefore_within hfirst hpart hlen
  have hnext : (feed {} part).drain =
      ([], if maxHeaderBytes < part.length then some .headerTooLong else none, ⟨none, part⟩) := by
    rcases next_header (d := feed {} part) rfl with ⟨_, _, hc, _⟩ | ⟨_, ⟨hl, hn⟩ | ⟨hl, hn⟩⟩
    · cases hnone.symm.trans hc
    · have hl' : maxHeaderBytes < part.length := hl
      rw [drain_failed hn, if_pos hl']
      rfl
    · have hl' : ¬ maxHeaderBytes < part.length := Nat.not_lt.mpr hl
      rw [drain_wait hn, if_neg hl']
      rfl
  rw [drain_behind hfront, hnext, List.append_nil]

/-- A header that is complete is judged by what it says. -/
theorem drain_judged
    (hcut : Bytes.cutBefore headerEnd (block ++ (headerEnd ++ rest)) = some (block, rest))
    (hfront : (feed {} front).drain = (items, none, {})) :
    Judged items block rest (feed {} (front ++ (block ++ (headerEnd ++ rest)))).drain := by
  have hnext := next_of_header (d := feed {} (block ++ (headerEnd ++ rest))) rfl hcut
  rw [drain_behind hfront]
  refine Judged.behind ?_ items
  cases hb : Header.bodyLength block with
  | error e =>
    simp only [hb] at hnext
    rw [drain_failed hnext]
    exact .refused hb
  | ok length =>
    simp only [hb, takeBody] at hnext
    cases hs : Bytes.splitExact? length rest with
    | none =>
      rw [hs] at hnext
      rw [drain_wait hnext]
      exact .awaited hb (Bytes.splitExact_none_iff.mp hs)
    | some cut =>
      obtain ⟨body, after⟩ := cut
      obtain ⟨hrest, rfl⟩ := Bytes.splitExact_some_iff.mp hs
      rw [hs] at hnext
      rw [drain_item hnext]
      exact .delivered hb hrest

/-- Bytes that end behind the limit and within the header are refused. -/
theorem drain_seen
    (hfirst : Bytes.cutBefore headerEnd (block ++ (headerEnd ++ rest)) = some (block, rest))
    (hfront : (feed {} front).drain = (items, none, {}))
    (ha : a ++ z = front ++ (block ++ (headerEnd ++ rest)))
    (hmore : front.length + maxHeaderBytes < a.length)
    (hless : a.length < front.length + block.length + headerEnd.length) :
    (feed {} a).drain.2.1 = some .headerTooLong := by
  rcases arrived_cases ha with hbefore | ⟨part, rfl, hpart, hlen⟩ | ⟨after, rfl, _⟩
  · have hle := hbefore.length_le
    omega
  · rw [List.length_append] at hmore
    have hl : maxHeaderBytes < part.length := by omega
    rw [drain_within hfirst hfront hpart hlen, if_pos hl]
  · simp only [List.length_append] at hless
    omega

/-- A decoder that got behind the header chunk by chunk has not seen it unfinished. -/
theorem not_seenUnfinished {arrived : List Bytes}
    (hfirst : Bytes.cutBefore headerEnd (block ++ (headerEnd ++ rest)) = some (block, rest))
    (hfront : (feed {} front).drain = (items, none, {}))
    (hstream : chunks.flatten = front ++ (block ++ (headerEnd ++ rest))) (hp : arrived <+: chunks)
    (hbehind : front.length + block.length + headerEnd.length ≤ arrived.flatten.length)
    (hearlier : ∀ earlier, earlier <+: arrived → earlier ≠ arrived →
      (feed {} earlier.flatten).drain.2.1 = none) :
    ¬ SeenUnfinished front block chunks := by
  rintro ⟨early, ⟨others, rfl⟩, hmore, hless⟩
  obtain ⟨hpre, hne⟩ := prefix_of_shorter ⟨others, rfl⟩ hp (Nat.lt_of_lt_of_le hless hbehind)
  rw [List.flatten_append] at hstream
  have hseen := drain_seen hfirst hfront hstream hmore hless
  cases hseen.symm.trans (hearlier early hpre hne)

/-- A header that the decoder gets to is refused for its size exactly if a chunk ends behind the
limit and before the end of the header. Otherwise only what it says counts, however long it is. -/
theorem refused_for_size_iff_seen_unfinished (front block rest : Bytes) (items : List Incoming)
    (chunks : List Bytes)
    (hfirst : Bytes.cutBefore headerEnd (block ++ (headerEnd ++ rest)) = some (block, rest))
    (hfront : (feed {} front).drain = (items, none, {}))
    (hstream : chunks.flatten = front ++ (block ++ (headerEnd ++ rest)))
    (hreached : ∀ arrived, arrived <+: chunks → arrived.flatten <+: front →
      (feed {} arrived.flatten).drain.2.1 = none) :
    let r := receive {} chunks
    ((r.1 = items ∧ r.2.1 = some .headerTooLong) ↔ SeenUnfinished front block chunks) ∧
      (¬ SeenUnfinished front block chunks → Judged items block rest r) := by
  intro r
  obtain ⟨arrived, ⟨later, hchunks⟩, hr, hall, hearlier⟩ := receive_eq_drain (d := {}) rfl chunks
  have hz : arrived.flatten ++ later.flatten = front ++ (block ++ (headerEnd ++ rest)) := by
    rw [← List.flatten_append, hchunks, hstream]
  have hwhole := congrArg List.length hz
  -- without an error all chunks have come
  have hnothing : r.2.1 = none → later.flatten = [] := by
    intro hn
    have hnil : later = [] := by simpa [hall hn] using hchunks
    rw [hnil, List.flatten_nil]
  simp only [List.length_append] at hwhole
  rcases arrived_cases hz with hbefore | ⟨part, ha, hpart, hlen⟩ | ⟨after, ha, hafter⟩
  · have hnone : r.2.1 = none := by
      rw [show r = _ from hr]
      exact hreached arrived ⟨later, hchunks⟩ hbefore
    have hle := hbefore.length_le
    have hmark : headerEnd.length = 4 := rfl
    rw [hnothing hnone, List.length_nil] at hwhole
    omega
  · have hr' : r = (items, if maxHeaderBytes < part.length then some .headerTooLong else none,
        ⟨none, part⟩) := by
      rw [show r = _ from hr, ha, drain_within hfirst hfront hpart hlen]
    have hlength : arrived.flatten.length = front.length + part.length := by
      rw [ha, List.length_append]
    by_cases hl : maxHeaderBytes < part.length
    · rw [if_pos hl] at hr'
      have hseen : SeenUnfinished front block chunks :=
        ⟨arrived, ⟨later, hchunks⟩, by omega, by omega⟩
      refine ⟨⟨fun _ => hseen, fun _ => ?_⟩, fun hn => absurd hseen hn⟩
      rw [hr']
      exact ⟨rfl, rfl⟩
    · rw [if_neg hl] at hr'
      have hlater := hnothing (by rw [hr'])
      rw [hlater, List.length_nil] at hwhole
      omega
  · have hjudged : Judged items block rest r := by
      have hj := drain_judged (Bytes.cutBefore_of_append (hafter ▸ hfirst)) hfront
      rw [← ha, ← hr] at hj
      rw [hafter]
      exact hj.extend hnothing
    have hbehind : front.length + block.length + headerEnd.length ≤ arrived.flatten.length := by
      rw [ha]
      simp only [List.length_append]
      omega
    have hnot : ¬ SeenUnfinished front block chunks :=
      not_seenUnfinished hfirst hfront hstream ⟨later, hchunks⟩ hbehind hearlier
    exact ⟨⟨fun h => absurd h hjudged.not_tooLong, fun h => absurd h hnot⟩, fun _ => hjudged⟩

/-- A header that announces 46 bytes and has blanks behind the number. -/
@[irreducible] def padded (blanks : Nat) : Bytes :=
  Bytes.ofString "Content-Length: 46" ++ List.replicate blanks 0x20

def threadsBody : Bytes :=
  .ofString "\x7b\"seq\":1,\"type\":\"request\",\"command\":\"threads\"\x7d"

theorem padded_eq (n : Nat) :
    padded n = .ofString (String.ofList ("Content-Length: 46".toList ++ List.replicate n ' ')) := by
  have hblanks : Bytes.ofString (String.ofList (List.replicate n ' ')) = List.replicate n 0x20 := by
    have hascii : ∀ c ∈ List.replicate n ' ', c.toNat < 0x80 := by
      intro c hc
      rw [(List.mem_replicate.mp hc).2]
      decide
    rw [Bytes.ofString_ascii hascii, List.map_replicate]
    rfl
  rw [padded, String.ofList_append, Bytes.ofString_append, hblanks]
  rfl

theorem padded_length (n : Nat) : Header.bodyLength (padded n) = .ok 46 := by
  have hblanks : ∀ c ∈ List.replicate n ' ', Text.isBlank c := by
    intro c hc
    rw [(List.mem_replicate.mp hc).2]
    rfl
  have hdigits : ∀ c ∈ ['4', '6'], Text.isBlank c = false := by
    rw [List.forall_mem_cons, List.forall_mem_singleton]
    exact ⟨rfl, rfl⟩
  have hunbroken :
      '\r' ∉ (String.ofList ("Content-Length: 46".toList ++ List.replicate n ' ')).toList := by
    rw [String.toList_ofList]
    simp [List.mem_replicate]
  have hvalue : Header.lengthValue?
      (String.ofList ("Content-Length: 46".toList ++ List.replicate n ' ')).toList =
        some ['4', '6'] := by
    have hline : "Content-Length: 46".toList = "Content-Length: ".toList ++ ['4', '6'] := by decide
    rw [String.toList_ofList, hline, List.append_assoc]
    exact Header.lengthValue_line (List.cons_ne_nil _ _) hdigits hblanks
  have hread : Text.readNumeral ['4', '6'] = .ok 46 := rfl
  rw [padded_eq]
  exact Header.bodyLength_line hunbroken hvalue hread (by decide)

theorem padded_cut (n : Nat) :
    Bytes.cutBefore headerEnd (padded n ++ (headerEnd ++ threadsBody)) =
      some (padded n, threadsBody) := by
  refine Bytes.cutBefore_of_not_mem ?_ [0x0A, 0x0D, 0x0A] threadsBody
  rw [padded, List.mem_append, List.mem_replicate, not_or]
  exact ⟨by decide, by simp⟩

theorem padded_size (n : Nat) : (padded n).length = 18 + n := by
  rw [padded, List.length_append, List.length_replicate]
  rfl

/-- In one chunk a header of more than 8192 bytes is accepted, and its frame is taken. -/
theorem long_header_accepted :
    maxHeaderBytes < (padded 8192).length ∧
      Bytes.cutBefore headerEnd (padded 8192 ++ (headerEnd ++ threadsBody)) =
        some (padded 8192, threadsBody) ∧
      receive {} [padded 8192 ++ (headerEnd ++ threadsBody)] =
        ([.ofBody threadsBody], none, {}) := by
  have hcut := padded_cut 8192
  refine ⟨by rw [padded_size]; decide, hcut, ?_⟩
  have hnext := next_of_header (d := feed {} (padded 8192 ++ (headerEnd ++ threadsBody))) rfl hcut
  rw [padded_length] at hnext
  have htaken : takeBody 46 threadsBody = .item (.ofBody threadsBody) ⟨none, []⟩ := rfl
  rw [receive, drain_item (hnext.trans htaken), drain_wait (d := ⟨none, []⟩) rfl]
  rfl

/-- The same header behind a frame is refused if its end comes late. -/
theorem long_header_refused_in_parts :
    let front : Bytes := .ofString "Content-Length: 2\r\n\r\n\x7b\x7d"
    let chunks := [front ++ padded 8192, headerEnd ++ threadsBody]
    let r := receive {} chunks
    SeenUnfinished front (padded 8192) chunks ∧
      r.1 = [.ofBody (.ofString "\x7b\x7d")] ∧ r.2.1 = some .headerTooLong := by
  intro front chunks r
  have hfront : (feed {} front).drain = ([.ofBody (.ofString "\x7b\x7d")], none, {}) := rfl
  have hstream : chunks.flatten = front ++ (padded 8192 ++ (headerEnd ++ threadsBody)) := by
    simp [chunks]
  have hreached : ∀ arrived, arrived <+: chunks → arrived.flatten <+: front →
      (feed {} arrived.flatten).drain.2.1 = none := by
    intro arrived hp hbefore
    rcases List.prefix_cons_iff.mp hp with rfl | ⟨tail, rfl, _⟩
    · rfl
    · have hle := hbefore.length_le
      rw [List.flatten_cons, List.length_append, List.length_append, padded_size] at hle
      omega
  have hseen : SeenUnfinished front (padded 8192) chunks := by
    refine ⟨[front ++ padded 8192], ⟨[headerEnd ++ threadsBody], rfl⟩, ?_, ?_⟩
    · rw [List.flatten_singleton, List.length_append, padded_size]
      exact Nat.add_lt_add_left (by decide) _
    · rw [List.flatten_singleton, List.length_append]
      exact Nat.lt_add_of_pos_right (by decide)
  have h := refused_for_size_iff_seen_unfinished front (padded 8192) threadsBody _ chunks
    (padded_cut 8192) hfront hstream hreached
  exact ⟨hseen, h.1.mpr hseen⟩

end DebugAdapter.Frontend.Decoder
