import DebugAdapter.Proofs.Frontend.Arrival

namespace DebugAdapter.Frontend

def requests (items : List Incoming) : List Request :=
  items.filterMap fun
    | .request r => some r
    | .malformed .. => none

theorem requests_append (first second : List Incoming) :
    requests (first ++ second) = requests first ++ requests second :=
  List.filterMap_append

theorem requests_cons (item : Incoming) (items : List Incoming) :
    requests (item :: items) = requests [item] ++ requests items :=
  requests_append [item] items

/-- A header and all of the body that it announces. -/
def Framed (frame : Bytes) : Prop :=
  ∃ block body, Bytes.cutBefore headerEnd frame = some (block, body) ∧
    Header.bodyLength block = .ok body.length

def Spoiled (frame : Bytes) : Prop :=
  ∃ block body, Bytes.cutBefore headerEnd frame = some (block, body) ∧
    Header.bodyLength block = .ok body.length ∧ block.length ≤ 8189 ∧
    ∃ reason, Request.ofBytes? body = .error reason

namespace Decoder

variable {d d' : Decoder} {item : Incoming} {block frame : Bytes}

/-- The headers that are met when all that has come is read. -/
def ShortHeaders (d : Decoder) : Prop :=
  ∀ block, MeetsHeader d block → block.length ≤ 8189

theorem ShortHeaders.of_feed {chunk : Bytes} (hs : (d.feed chunk).ShortHeaders) :
    d.ShortHeaders :=
  fun block hm => hs block (hm.feed chunk)

/-- All that a frame can bring that stands alone. -/
theorem next_framed {body : Bytes} (hc : Bytes.cutBefore headerEnd frame = some (block, body))
    (hb : Header.bodyLength block = .ok body.length) :
    (feed {} frame).next = .item (.ofBody body) {} := by
  rw [← List.append_nil body] at hc
  exact next_whole hc hb

/-- A spoiled frame is an item that is no request. -/
theorem next_spoiled (hf : Spoiled frame) :
    ∃ item, (feed {} frame).next = .item item {} ∧ requests [item] = [] := by
  obtain ⟨block, body, hc, hb, _, reason, hr⟩ := hf
  refine ⟨_, next_framed hc hb, ?_⟩
  rw [Incoming.ofBody, hr]
  rfl

theorem not_meetsHeader_nil : ¬ MeetsHeader {} block := by
  intro hm
  cases hm with
  | here _ hc => cases hc
  | later ht _ => cases ht

theorem spoiled_short (hf : Spoiled frame) : (feed {} frame).ShortHeaders := by
  obtain ⟨block, body, hc, hb, hl, _⟩ := hf
  rw [← List.append_nil body] at hc
  intro other hm
  rcases meets_whole hc hb hm with rfl | hm
  · exact hl
  · exact absurd hm not_meetsHeader_nil

/-- The headers of a stream are those of the frame at its front and those of the rest. -/
theorem shortHeaders_framed (hi : (feed {} frame).next = .item item {}) (rest : Bytes) :
    (feed {} (frame ++ rest)).ShortHeaders ↔
      (feed {} frame).ShortHeaders ∧ (feed {} rest).ShortHeaders := by
  have hnext : (feed {} (frame ++ rest)).next = .item item (feed {} rest) :=
    next_item_feed hi rest
  constructor
  · intro hs
    constructor
    · rw [feed_append] at hs
      exact hs.of_feed
    · exact fun block hm => hs block (.later hnext hm)
  · intro ⟨hframe, hrest⟩ block hm
    cases hm with
    | here _ hc =>
      rcases next_header (d := feed {} frame) rfl with ⟨_, _, hcut, _⟩ | ⟨_, ⟨_, hn⟩ | ⟨_, hn⟩⟩
      · cases hc.symm.trans (Bytes.cutBefore_append hcut rest)
        exact hframe _ (.here rfl hcut)
      · cases hn.symm.trans hi
      · cases hn.symm.trans hi
    | later ht hm =>
      cases ht.symm.trans hnext
      exact hrest block hm

/-- One whole frame in front of a stream is one item in front of what that gives. -/
theorem drain_framed (hi : (feed {} frame).next = .item item {}) (rest : Bytes) :
    (feed {} (frame ++ rest)).drain =
      (item :: (feed {} rest).drain.1, (feed {} rest).drain.2) :=
  drain_item (next_item_feed hi rest)

/-- The beginning of a frame without a request brings no request and is not refused. -/
theorem drain_beginning {beginning : Bytes} (hf : Spoiled frame) (hb : beginning <+: frame) :
    requests (feed {} beginning).drain.1 = [] ∧ (feed {} beginning).drain.2.1 = none := by
  obtain ⟨more, rfl⟩ := hb
  obtain ⟨item, hi, hnone⟩ := next_spoiled hf
  have hwhole : (feed {} (beginning ++ more)).drain = ([item], none, {}) := drain_item hi
  rw [feed_append] at hwhole
  constructor
  · rw [drain_feed] at hwhole
    have hitems := congrArg requests (congrArg Prod.fst hwhole)
    rw [requests_append, hnone, List.append_eq_nil_iff] at hitems
    exact hitems.1
  · cases he : (feed {} beginning).drain.2.1 with
    | none => rfl
    | some e =>
      have hshort := spoiled_short hf
      rw [feed_append] at hshort
      have hfailed := (drain_failed_feed he hshort).2
      rw [hwhole] at hfailed
      cases hfailed

/-- A stream with frames put in that hold no request brings the same requests and comes to the same
end. -/
theorem drain_padded {unfinished : Prop} {plain padded : Bytes}
    (hp : Bytes.Padded unfinished Framed Spoiled plain padded) :
    requests (feed {} padded).drain.1 = requests (feed {} plain).drain.1 ∧
      (feed {} padded).drain.2.1 = (feed {} plain).drain.2.1 := by
  induction hp with
  | rest => exact ⟨rfl, rfl⟩
  | begun _ hf hb => exact drain_beginning hf hb
  | added hf _ ih =>
    obtain ⟨item, hi, hnone⟩ := next_spoiled hf
    obtain ⟨hrequests, herror⟩ := ih
    rw [drain_framed hi, requests_cons, hnone, hrequests]
    exact ⟨rfl, herror⟩
  | kept hf _ ih =>
    obtain ⟨block, body, hc, hb⟩ := hf
    obtain ⟨hrequests, herror⟩ := ih
    have hi := next_framed hc hb
    rw [drain_framed hi, drain_framed hi]
    refine ⟨?_, herror⟩
    rw [requests_cons, hrequests]
    exact (requests_cons _ _).symm

/-- Where the headers of a stream are short, so are those of the stream with the frames put in. -/
theorem ShortHeaders.padded {unfinished : Prop} {plain padded : Bytes}
    (hp : Bytes.Padded unfinished Framed Spoiled plain padded)
    (hs : (feed {} plain).ShortHeaders) : (feed {} padded).ShortHeaders := by
  induction hp with
  | rest => exact hs
  | begun _ hf hb =>
    obtain ⟨more, rfl⟩ := hb
    have hshort := spoiled_short hf
    rw [feed_append] at hshort
    exact hshort.of_feed
  | added hf _ ih =>
    obtain ⟨_, hi, _⟩ := next_spoiled hf
    exact (shortHeaders_framed hi _).mpr ⟨spoiled_short hf, ih hs⟩
  | kept hf _ ih =>
    obtain ⟨_, _, hc, hb⟩ := hf
    have hi := next_framed hc hb
    obtain ⟨hframe, hrest⟩ := (shortHeaders_framed hi _).mp hs
    exact (shortHeaders_framed hi _).mpr ⟨hframe, ih hrest⟩

/-- Whatever comes, one decoder brings some requests first, and then what another brings. -/
def Yields (rs : List Request) (d d' : Decoder) : Prop :=
  ∀ more, requests (d.feed more).drain.1 = rs ++ requests (d'.feed more).drain.1 ∧
    (d.feed more).drain.2.1 = (d'.feed more).drain.2.1 ∧
    ∀ block, MeetsHeader (d'.feed more) block → MeetsHeader (d.feed more) block

namespace Yields

variable {d d' d'' : Decoder} {rs rs' : List Request}

theorem refl (d : Decoder) : Yields [] d d :=
  fun _ => ⟨rfl, rfl, fun _ hm => hm⟩

theorem trans (h : Yields rs d d') (h' : Yields rs' d' d'') : Yields (rs ++ rs') d d'' := by
  intro more
  obtain ⟨hrequests, herror, hmeets⟩ := h more
  obtain ⟨hrequests', herror', hmeets'⟩ := h' more
  refine ⟨?_, herror.trans herror', fun block hm => hmeets block (hmeets' block hm)⟩
  rw [hrequests, hrequests', List.append_assoc]

theorem feed (h : Yields rs d d') (chunk : Bytes) : Yields rs (d.feed chunk) (d'.feed chunk) := by
  intro more
  rw [← feed_append, ← feed_append]
  exact h (chunk ++ more)

theorem now (h : Yields rs d d') :
    requests d.drain.1 = rs ++ requests d'.drain.1 ∧ d.drain.2.1 = d'.drain.2.1 := by
  obtain ⟨hrequests, herror, _⟩ := h []
  rw [feed_nil, feed_nil] at hrequests herror
  exact ⟨hrequests, herror⟩

theorem short (h : Yields rs d d') (hs : d.ShortHeaders) : d'.ShortHeaders := by
  intro block hm
  obtain ⟨_, _, hmeets⟩ := h []
  rw [feed_nil, feed_nil] at hmeets
  exact hs block (hmeets block hm)

end Yields

theorem item_yields (hi : d.next = .item item d') : Yields (requests [item]) d d' := by
  intro more
  have hnext := next_item_feed hi more
  rw [drain_item hnext]
  exact ⟨requests_cons _ _, rfl, fun block hm => .later hnext hm⟩

theorem wait_yields (hw : d.next = .wait d') : Yields [] d d' := by
  intro more
  have hnext := next_wait_feed hw more
  rw [drain_eq (d.feed more), hnext, ← drain_eq]
  refine ⟨rfl, rfl, fun block hm => ?_⟩
  cases hm with
  | later ht hm => exact .later (hnext.trans ht) hm
  | here ha hc =>
    -- Where a header is still to come, waiting has left the decoder as it was.
    rcases next_wait hw with ⟨rfl, _⟩ | ⟨length, hsome, _⟩
    · exact .here ha hc
    · cases hsome.symm.trans ha

end Decoder
end DebugAdapter.Frontend
