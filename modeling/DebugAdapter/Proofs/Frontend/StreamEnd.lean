import DebugAdapter.Proofs.Frontend.HeaderLimit

namespace DebugAdapter.Frontend.Decoder

/-- A frame as it may be sent. Its header has no other end than its own, is not too long to be waited
for, and announces the body. -/
structure SentFrame where
  header : Bytes
  body : Bytes
  closed : Bytes.cutBefore headerEnd (header ++ headerEnd) = some (header, [])
  short : header.length ≤ 8189
  announced : Header.bodyLength header = .ok body.length

namespace SentFrame

def bytes (f : SentFrame) : Bytes :=
  f.header ++ (headerEnd ++ f.body)

def item (f : SentFrame) : Incoming :=
  .ofBody f.body

end SentFrame

def stream (frames : List SentFrame) : Bytes :=
  frames.flatMap SentFrame.bytes

/-- Where a stream is cut off: between two frames, or within one. -/
inductive Place where
  | boundary
  | inHeader
  | behindHeader
  | inBody
deriving DecidableEq

/-- The bytes of a stream of frames up to a cut: some of the frames, and a piece of the next. -/
inductive CutOff : List SentFrame → List SentFrame → Place → Bytes → Prop where
  | boundary (whole later : List SentFrame) :
    CutOff (whole ++ later) whole .boundary (stream whole)
  | inHeader (whole : List SentFrame) (f : SentFrame) (later : List SentFrame) {part rest : Bytes}
      (split : part ++ rest = f.header ++ headerEnd) (begun : part ≠ []) (missing : rest ≠ []) :
    CutOff (whole ++ f :: later) whole .inHeader (stream whole ++ part)
  | behindHeader (whole : List SentFrame) (f : SentFrame) (later : List SentFrame)
      (missing : f.body ≠ []) :
    CutOff (whole ++ f :: later) whole .behindHeader (stream whole ++ (f.header ++ headerEnd))
  | inBody (whole : List SentFrame) (f : SentFrame) (later : List SentFrame) {part rest : Bytes}
      (split : part ++ rest = f.body) (begun : part ≠ []) (missing : rest ≠ []) :
    CutOff (whole ++ f :: later) whole .inBody (stream whole ++ (f.header ++ (headerEnd ++ part)))

/-- All that comes of a stream that arrives in `chunks` and ends behind them: the frames, and the
error if it ends with one. -/
def decodeAll (chunks : List Bytes) : List Incoming × Option FrameError :=
  match receive {} chunks with
  | (items, none, d) => (items ++ d.finish.1, d.finish.2.1)
  | (items, some e, _) => (items, some e)

section Cuts

variable {frames whole later : List SentFrame} {place : Place} {bytes : Bytes}

theorem stream_append (first second : List SentFrame) :
    stream (first ++ second) = stream first ++ stream second :=
  List.flatMap_append

theorem stream_cons (f : SentFrame) (frames : List SentFrame) :
    stream (f :: frames) = f.header ++ (headerEnd ++ (f.body ++ stream frames)) := by
  rw [stream, List.flatMap_cons, SentFrame.bytes, List.append_assoc, List.append_assoc]
  rfl

theorem CutOff.cons (f : SentFrame) (hc : CutOff frames whole place bytes) :
    CutOff (f :: frames) (f :: whole) place (f.bytes ++ bytes) := by
  have hstream (more : Bytes) : f.bytes ++ (stream whole ++ more) = stream (f :: whole) ++ more := by
    rw [← List.append_assoc]
    rfl
  cases hc with
  | boundary _ later => exact .boundary (f :: whole) later
  | inHeader _ g later split begun missing =>
    rw [hstream]
    exact .inHeader (f :: whole) g later split begun missing
  | behindHeader _ g later missing =>
    rw [hstream]
    exact .behindHeader (f :: whole) g later missing
  | inBody _ g later split begun missing =>
    rw [hstream]
    exact .inBody (f :: whole) g later split begun missing

/-- Bytes that do not make up the first frame are cut off within it. -/
theorem cutOff_within (f : SentFrame) (later : List SentFrame) {rest : Bytes}
    (hsplit : bytes ++ rest = f.bytes) (hmissing : rest ≠ []) :
    ∃ place, CutOff (f :: later) [] place bytes := by
  by_cases hbegun : bytes = []
  · subst hbegun
    exact ⟨_, .boundary [] (f :: later)⟩
  · have hassoc : bytes ++ rest = (f.header ++ headerEnd) ++ f.body := by
      rw [hsplit, SentFrame.bytes, List.append_assoc]
    rcases List.append_eq_append_iff.mp hassoc with ⟨more, hmore, hrest⟩ | ⟨part, rfl, hpart⟩
    · by_cases hnil : more = []
      · subst hnil
        rw [List.append_nil] at hmore
        rw [List.nil_append] at hrest
        rw [← hmore]
        exact ⟨_, .behindHeader [] f later (hrest ▸ hmissing)⟩
      · exact ⟨_, .inHeader [] f later hmore.symm hbegun hnil⟩
    · by_cases hnil : part = []
      · subst hnil
        rw [List.append_nil]
        exact ⟨_, .behindHeader [] f later (fun h => hmissing (by simpa [h] using hpart.symm))⟩
      · rw [List.append_assoc]
        exact ⟨_, .inBody [] f later hpart.symm hnil hmissing⟩

/-- Whatever comes first of a stream of frames is cut off at one of the places. -/
theorem exists_cutOff (hp : bytes <+: stream frames) :
    ∃ whole place, CutOff frames whole place bytes := by
  induction frames generalizing bytes with
  | nil =>
    obtain rfl : bytes = [] := List.prefix_nil.mp hp
    exact ⟨_, _, .boundary [] []⟩
  | cons f frames ih =>
    obtain ⟨rest, hrest⟩ := hp
    have hstream : bytes ++ rest = f.bytes ++ stream frames := hrest
    rcases List.append_eq_append_iff.mp hstream with ⟨more, hmore, _⟩ | ⟨tail, rfl, htail⟩
    · by_cases hnil : more = []
      · subst hnil
        rw [List.append_nil] at hmore
        exact ⟨[f], _, by simpa [← hmore, stream] using CutOff.boundary [f] frames⟩
      · obtain ⟨place, hc⟩ := cutOff_within f frames hmore.symm hnil
        exact ⟨[], place, hc⟩
    · obtain ⟨whole, place, hc⟩ := ih ⟨rest, htail.symm⟩
      exact ⟨f :: whole, place, hc.cons f⟩

end Cuts

section Ending

variable {f : SentFrame} {frames whole : List SentFrame} {place : Place} {d : Decoder}
  {part rest bytes block : Bytes} {items : List Incoming}

theorem SentFrame.cut (f : SentFrame) (rest : Bytes) :
    Bytes.cutBefore headerEnd (f.header ++ (headerEnd ++ rest)) = some (f.header, rest) := by
  have hcut := Bytes.cutBefore_append f.closed rest
  rwa [List.append_assoc] at hcut

/-- Behind its header a frame is waited for until all of its body is there. -/
theorem next_part (f : SentFrame) (hsplit : part ++ rest = f.body) (hmissing : rest ≠ []) :
    (feed {} (f.header ++ (headerEnd ++ part))).next = .wait ⟨some f.body.length, part⟩ := by
  have hshort : part.length < f.body.length := by
    rw [← hsplit, List.length_append]
    exact Nat.lt_add_of_pos_right (List.length_pos_iff.mpr hmissing)
  have hnext := next_of_header (d := feed {} (f.header ++ (headerEnd ++ part))) rfl (f.cut part)
  rw [hnext, f.announced]
  simp only [takeBody, Bytes.splitExact_none_iff.mpr hshort]

/-- Whole frames are decoded to what was sent in them. -/
theorem drain_stream (frames : List SentFrame) :
    (feed {} (stream frames)).drain = (frames.map SentFrame.item, none, {}) := by
  induction frames with
  | nil => rfl
  | cons f frames ih =>
    have hnext := next_whole (f.cut (f.body ++ stream frames)) f.announced
    rw [stream_cons, drain_item hnext, ih]
    rfl

theorem meets_stream (hm : MeetsHeader (feed {} (stream frames)) block) :
    ∃ f ∈ frames, block = f.header := by
  induction frames with
  | nil =>
    cases hm with
    | here _ cut => cases cut
    | later taken _ => cases taken
  | cons f frames ih =>
    rw [stream_cons] at hm
    rcases meets_whole (f.cut (f.body ++ stream frames)) f.announced hm with rfl | met
    · exact ⟨f, List.mem_cons_self, rfl⟩
    · obtain ⟨g, hg, hblock⟩ := ih met
      exact ⟨g, List.mem_cons_of_mem f hg, hblock⟩

/-- What is left over of a stream that is cut off. -/
theorem drain_cutOff (hc : CutOff frames whole place bytes) :
    ∃ rest, (feed {} bytes).drain = (whole.map SentFrame.item, none, rest) ∧
      (rest.buffer = [] ↔ place = .boundary ∨ place = .behindHeader) := by
  cases hc with
  | boundary _ later => exact ⟨_, drain_stream whole, by simp⟩
  | @inHeader _ f later part rest split begun missing =>
    have hlen : part.length < f.header.length + headerEnd.length := by
      rw [← List.length_append, ← split, List.length_append]
      exact Nat.lt_add_of_pos_right (List.length_pos_iff.mpr missing)
    have hsize : ¬ maxHeaderBytes < part.length := by
      have hshort := f.short
      have hmark : headerEnd.length = 4 := rfl
      have hmax : maxHeaderBytes = 8192 := rfl
      omega
    have hdrain := drain_within (f.cut []) (drain_stream whole) (by simpa using split) hlen
    rw [if_neg hsize] at hdrain
    exact ⟨_, hdrain, by simpa using begun⟩
  | behindHeader _ f later missing =>
    have hnext := next_part f (List.nil_append f.body) missing
    rw [List.append_nil] at hnext
    refine ⟨⟨some f.body.length, []⟩, ?_, by simp⟩
    rw [drain_behind (drain_stream whole), drain_wait hnext, List.append_nil]
  | @inBody _ f later part rest split begun missing =>
    refine ⟨⟨some f.body.length, part⟩, ?_, by simpa using begun⟩
    rw [drain_behind (drain_stream whole), drain_wait (next_part f split missing), List.append_nil]

/-- What arrives of a stream that is cut off is the beginning of it. -/
theorem CutOff.isPrefix (hc : CutOff frames whole place bytes) : bytes <+: stream frames := by
  have hwithin {f : SentFrame} {later : List SentFrame} {piece : Bytes} (hp : piece <+: f.bytes) :
      stream whole ++ piece <+: stream (whole ++ f :: later) := by
    rw [stream_append, List.prefix_append_right_inj]
    exact hp.trans (List.prefix_append f.bytes (stream later))
  cases hc with
  | boundary _ later =>
    rw [stream_append]
    exact List.prefix_append _ _
  | @inHeader _ f later part rest split begun missing =>
    exact hwithin ⟨rest ++ f.body, by rw [← List.append_assoc, split, List.append_assoc]; rfl⟩
  | behindHeader _ f later missing => exact hwithin ⟨f.body, by rw [List.append_assoc]; rfl⟩
  | @inBody _ f later part rest split begun missing =>
    exact hwithin ⟨rest, by simp [SentFrame.bytes, ← split]⟩

/-- No header is too long in what comes first of a stream of frames. -/
theorem CutOff.short (hc : CutOff frames whole place bytes)
    (hm : MeetsHeader (Decoder.feed {} bytes) block) : block.length ≤ 8189 := by
  obtain ⟨rest, hrest⟩ := hc.isPrefix
  have hmeets := hm.feed rest
  rw [← feed_append, hrest] at hmeets
  obtain ⟨f, _, rfl⟩ := meets_stream hmeets
  exact f.short

/-- The frames of a stream that ends, and its error, are those of all its bytes at once. -/
theorem decodeAll_of_short (chunks : List Bytes)
    (hshort : ∀ block, MeetsHeader (feed {} chunks.flatten) block → block.length ≤ 8189)
    (hdrain : (feed {} chunks.flatten).drain = (items, none, d)) :
    decodeAll chunks = (items, if d.buffer.isEmpty then none else some .unfinishedFrame) := by
  obtain ⟨hitems, herror, hrest⟩ := receive_of_short chunks hshort
  rw [hdrain] at hitems herror hrest
  have hreceive : receive {} chunks = (items, none, d) :=
    Prod.ext hitems (Prod.ext herror (hrest herror))
  have hsettled := drain_settled (d := feed {} chunks.flatten) (by rw [hdrain])
  rw [hdrain] at hsettled
  rw [decodeAll, hreceive]
  simp only [finish, drain_wait hsettled, List.append_nil]

/-- A stream of frames that is cut off anywhere gives its whole frames. It ends without an error
exactly between two frames and right behind the header of a frame whose body is missing. So the lack
of an error tells that it was cut between two frames exactly if it was not cut behind a header. -/
theorem ends_cleanly_between_frames_or_behind_header (frames : List SentFrame) (chunks : List Bytes)
    (hbegins : chunks.flatten <+: stream frames) :
    (∃ whole place, CutOff frames whole place chunks.flatten) ∧
    ∀ whole place, CutOff frames whole place chunks.flatten →
      let r := decodeAll chunks
      r.1 = whole.map SentFrame.item ∧ (r.2 = none ∨ r.2 = some .unfinishedFrame) ∧
        (r.2 = none ↔ place = .boundary ∨ place = .behindHeader) ∧
        ((r.2 = none ↔ place = .boundary) ↔ place ≠ .behindHeader) := by
  refine ⟨exists_cutOff hbegins, ?_⟩
  intro whole place hc r
  obtain ⟨rest, hdrain, hempty⟩ := drain_cutOff hc
  have hr : r = (whole.map SentFrame.item, _) :=
    decodeAll_of_short chunks (fun block hm => hc.short hm) hdrain
  have hclean : r.2 = none ↔ place = .boundary ∨ place = .behindHeader := by
    rw [hr, ← hempty, ← List.isEmpty_iff]
    simp
  refine ⟨by rw [hr], ?_, hclean, ?_⟩
  · rw [hr]
    simp only
    split
    · exact Or.inl rfl
    · exact Or.inr rfl
  · rw [hclean]
    cases place <;> decide

def threadsFrame : SentFrame where
  header := .ofString "Content-Length: 46"
  body := threadsBody
  closed := rfl
  short := by decide
  announced := rfl

/-- A stream that ends within the second header, one byte before its end. -/
theorem cut_header_noticed :
    let chunks := [threadsFrame.bytes, threadsFrame.header ++ [0x0D, 0x0A, 0x0D]]
    chunks.flatten <+: stream [threadsFrame, threadsFrame] ∧
      (decodeAll chunks).1 = [threadsFrame.item] ∧ (decodeAll chunks).2 ≠ none := by
  intro chunks
  have hcut : CutOff [threadsFrame, threadsFrame] [threadsFrame] .inHeader chunks.flatten := by
    have hsplit : threadsFrame.header ++ [0x0D, 0x0A, 0x0D] ++ [0x0A] =
        threadsFrame.header ++ headerEnd := by decide
    have hcut := CutOff.inHeader [threadsFrame] threadsFrame [] hsplit (by decide) (by decide)
    simpa [chunks, stream] using hcut
  have h := (ends_cleanly_between_frames_or_behind_header _ chunks hcut.isPrefix).2 _ _ hcut
  refine ⟨hcut.isPrefix, h.1, ?_⟩
  rw [Ne, h.2.2.1]
  decide

/-- A stream that ends right behind a header, where the body is missing, ends without an error. -/
theorem missing_body_unnoticed :
    CutOff [threadsFrame] [] .behindHeader [threadsFrame.header ++ headerEnd].flatten ∧
      decodeAll [threadsFrame.header ++ headerEnd] = ([], none) := by
  constructor
  · rw [List.flatten_singleton]
    exact .behindHeader [] threadsFrame [] (by decide)
  · rfl

end Ending

end DebugAdapter.Frontend.Decoder
