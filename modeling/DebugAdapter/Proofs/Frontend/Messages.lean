import DebugAdapter.Frontend.Outbox
import DebugAdapter.Proofs.Frontend.Framing

namespace DebugAdapter.Frontend

open Json

namespace Message

/-- A message that survives being written, whatever number it gets. -/
def Portable : Message → Prop
  | response r => r.requestSeq < 2 ^ 64 ∧ ∀ body ∈ r.body, body.Portable (maxDepth - 1)
  | event e => ∀ body ∈ e.body, body.Portable (maxDepth - 1)

/-- A body that is null is read as none. -/
def presentBody : Option Json → Option Json
  | some .null => none
  | body => body

def withoutNull : Message → Message
  | response r => response { r with body := presentBody r.body }
  | event e => event { e with body := presentBody e.body }

theorem optionalField_portable {name : String} {value : Option Json} {depth : Nat}
    (hvalue : ∀ j ∈ value, j.Portable depth) :
    ∀ f ∈ optionalField name value, f.2.Portable depth := by
  intro f hf
  obtain ⟨j, hj, rfl⟩ := List.mem_map.mp hf
  exact hvalue j (Option.mem_toList.mp hj)

theorem fields_portable {m : Message} (hm : m.Portable) {seq : Nat} (hseq : seq < 2 ^ 64) :
    ∀ f ∈ (m.withSeq seq).toFields, f.2.Portable (maxDepth - 1) := by
  cases m with
  | response r =>
    obtain ⟨hrequest, hbody⟩ := hm
    have hmessage : ∀ j ∈ r.message.map Json.string, j.Portable (maxDepth - 1) := by
      intro j hj
      obtain ⟨s, _, rfl⟩ := Option.mem_map.mp hj
      exact .string
    intro f hf
    simp only [withSeq, toFields, Response.toFields, List.mem_append] at hf
    rcases hf with (hf | hf) | hf
    · simp only [List.mem_cons, List.not_mem_nil, or_false] at hf
      rcases hf with rfl | rfl | rfl | rfl | rfl
      · exact nat_portable hseq
      · exact .string
      · exact nat_portable hrequest
      · exact .bool
      · exact .string
    · exact optionalField_portable hmessage f hf
    · exact optionalField_portable hbody f hf
  | event e =>
    intro f hf
    simp only [withSeq, toFields, Event.toFields, List.mem_append] at hf
    rcases hf with hf | hf
    · simp only [List.mem_cons, List.not_mem_nil, or_false] at hf
      rcases hf with rfl | rfl | rfl
      · exact nat_portable hseq
      · exact .string
      · exact .string
    · exact optionalField_portable hm f hf

theorem optional_body (body : Option Json) :
    optional? (pure : Json → Except ReadError Json) body = some (presentBody body) := by
  cases body with
  | none => rfl
  | some j => cases j <;> rfl

theorem optional_text (message : Option String) :
    optional? Value.toText (message.map .string) = some message := by
  cases message <;> rfl

theorem select_response (r : Response) :
    select? responseNames r.toFields =
      some [some (.nat r.seq), some (.string r.kind), some (.nat r.requestSeq),
        some (.bool r.success), some (.string r.command), r.message.map .string, r.body] := by
  obtain ⟨seq, kind, requestSeq, success, command, message, body⟩ := r
  cases message <;> cases body <;> rfl

theorem select_event (e : Event) :
    select? eventNames e.toFields =
      some [some (.nat e.seq), some (.string e.kind), some (.string e.event), e.body] := by
  obtain ⟨seq, kind, event, body⟩ := e
  cases body <;> rfl

/-- An event lacks what makes a response. -/
theorem event_no_response (e : Event) :
    (select? responseNames e.toFields).bind response? = none := by
  have hselect : select? responseNames e.toFields =
      some [some (.nat e.seq), some (.string e.kind), none, none, none, none, e.body] := by
    obtain ⟨seq, kind, event, body⟩ := e
    cases body <;> rfl
  rw [hselect, Option.bind_some, response?]
  rfl

theorem response_values (r : Response) :
    response? [some (.nat r.seq), some (.string r.kind), some (.nat r.requestSeq),
      some (.bool r.success), some (.string r.command), r.message.map .string, r.body] =
    some { r with body := presentBody r.body } := by
  rw [response?, optional_body, optional_text]
  rfl

theorem event_values (e : Event) :
    event? [some (.nat e.seq), some (.string e.kind), some (.string e.event), e.body] =
    some { e with body := presentBody e.body } := by
  rw [event?, optional_body]
  rfl

/-- What a message prints of itself is what it is read from, but for a null that stands for
nothing. -/
theorem ofOutline_fields (m : Message) : ofOutline? (.object m.toFields) = some m.withoutNull := by
  cases m with
  | response r =>
    rw [toFields, ofOutline?]
    simp only [select_response, Option.bind_some, response_values]
    rfl
  | event e =>
    rw [toFields, ofOutline?]
    simp only [event_no_response, select_event, Option.bind_some, event_values]
    rfl

/-- A message is read as it was written, but for a body that is null. -/
theorem ofBytes_print {m : Message} (hm : m.Portable) {seq : Nat} (hseq : seq < 2 ^ 64) :
    ofBytes? (m.withSeq seq).print = .ok (m.withSeq seq).withoutNull := by
  have hread := readOutline_record (fields_portable hm hseq)
  rw [ofBytes?, Message.print, printRecord, hread]
  simp only [bind, Except.bind, ofOutline_fields]
  rfl

end Message

def decimal? (cs : List Char) : Option Nat :=
  if cs ≠ [] ∧ cs.all Char.isDigit then some (Nat.ofDigitChars 10 cs 0) else none

/-- Reads one frame off a stream: `Content-Length: N`, an empty line, and `N` bytes. -/
def takeFrame? (bytes : Bytes) : Option (Bytes × Bytes) := do
  let (header, rest) ← Bytes.cutBefore headerEnd bytes
  let digits ← Bytes.strip? (Bytes.ofString "Content-Length: ") header
  let text ← Bytes.toString? digits
  let length ← decimal? text.toList
  Bytes.splitExact? length rest

theorem length_of_takeFrame {bytes body rest : Bytes} (ht : takeFrame? bytes = some (body, rest)) :
    rest.length < bytes.length := by
  simp only [takeFrame?, Option.bind_eq_bind, Option.bind_eq_some_iff, Prod.exists] at ht
  obtain ⟨header, after, hcut, _, _, _, _, length, _, hsplit⟩ := ht
  have hbytes := congrArg List.length (Bytes.cutBefore_some_iff.mp hcut).1
  have hafter := congrArg List.length (Bytes.splitExact_some_iff.mp hsplit).1
  have hmark : headerEnd.length = 4 := rfl
  simp only [List.length_append] at hbytes hafter
  omega

/-- The bodies of the frames that a stream begins with, and what is left over. -/
def splitFrames (bytes : Bytes) : List Bytes × Bytes :=
  match _h : takeFrame? bytes with
  | none => ([], bytes)
  | some (body, rest) => (body :: (splitFrames rest).1, (splitFrames rest).2)
termination_by bytes.length
decreasing_by all_goals exact length_of_takeFrame _h

theorem decimal_toString (n : Nat) : decimal? (toString n).toList = some n := by
  have hall : (Nat.toDigits 10 n).all Char.isDigit = true :=
    List.all_eq_true.mpr (Text.toDigits_isDigit n)
  rw [Nat.toString_eq_ofList_toDigits, String.toList_ofList, decimal?,
    if_pos ⟨Nat.toDigits_ne_nil, hall⟩, Nat.ofDigitChars_ten_toDigits]

theorem takeFrame_frame (body rest : Bytes) :
    takeFrame? (frame body ++ rest) = some (body, rest) := by
  have hstrip : Bytes.strip? (Bytes.ofString "Content-Length: ") (Header.ofLength body.length) =
      some (Bytes.ofString (toString body.length)) :=
    Bytes.strip_some_iff.mpr (Bytes.ofString_append ..)
  rw [takeFrame?, cutBefore_frame]
  simp only [bind, Option.bind, hstrip, Bytes.toString?_ofString, decimal_toString]
  exact Bytes.splitExact_some_iff.mpr ⟨rfl, rfl⟩

/-- Frames are split where they were joined, and nothing is left. -/
theorem splitFrames_frames (bodies : List Bytes) :
    splitFrames (bodies.flatMap frame) = (bodies, []) := by
  induction bodies with
  | nil =>
    rw [splitFrames]
    rfl
  | cons body bodies ih =>
    have htake := takeFrame_frame body (bodies.flatMap frame)
    rw [List.flatMap_cons, splitFrames]
    split
    · rename_i hnone
      cases hnone.symm.trans htake
    · rename_i hsome
      cases hsome.symm.trans htake
      rw [ih]

namespace Outbox

variable {o : Outbox}

def texts (first : Nat) (messages : List Message) : List Bytes :=
  messages.mapIdx fun i m => (m.withSeq (first + i)).print

theorem put_whole (hopen : o.isBroken = false) (m : Message) :
    o.put none m = (⟨o.nextSeq + 1, o.isBroken⟩, (m.withSeq o.nextSeq).toFrame) := by
  rw [put, if_neg (by simp [hopen])]

theorem put_partly (hopen : o.isBroken = false) (n : Nat) (m : Message) :
    o.put (some n) m = (⟨o.nextSeq + 1, true⟩, (m.withSeq o.nextSeq).toFrame.take n) := by
  rw [put, if_neg (by simp [hopen])]

/-- A writer that does not fail writes one frame for each message, in order. -/
theorem putAll_frames (hopen : o.isBroken = false) (messages : List Message) :
    (o.putAll none messages).2 = (texts o.nextSeq messages).flatMap frame := by
  induction messages generalizing o with
  | nil => rfl
  | cons m messages ih =>
    have hnext := ih (o := ⟨o.nextSeq + 1, o.isBroken⟩) hopen
    have htexts : texts o.nextSeq (m :: messages) =
        (m.withSeq o.nextSeq).print :: texts (o.nextSeq + 1) messages := by
      simp only [texts, List.mapIdx_cons, Nat.add_zero, Nat.add_assoc, Nat.add_comm 1]
    rw [putAll, put_whole hopen, htexts, List.flatMap_cons]
    simp only
    rw [hnext]
    rfl

/-- Puts messages one after the other, each where the front end takes all of it or only so many
bytes. -/
def putEach (o : Outbox) : List (Option Nat × Message) → Outbox × Bytes
  | [] => (o, [])
  | (room, m) :: tries =>
    let (o, bytes) := o.put room m
    let (o, more) := o.putEach tries
    (o, bytes ++ more)

theorem putEach_broken (hbroken : o.isBroken = true) (tries : List (Option Nat × Message)) :
    (o.putEach tries).2 = [] := by
  induction tries with
  | nil => rfl
  | cons t tries ih =>
    obtain ⟨room, m⟩ := t
    have hput : o.put room m = (o, []) := by rw [put, if_pos hbroken]
    rw [putEach, hput]
    exact ih

/-- Where a write fails, what was written is the beginning of what would have been. -/
theorem putEach_prefix (hopen : o.isBroken = false) (tries : List (Option Nat × Message)) :
    (o.putEach tries).2 <+: (o.putAll none (tries.map (·.2))).2 := by
  induction tries generalizing o with
  | nil => exact List.prefix_rfl
  | cons t tries ih =>
    obtain ⟨room, m⟩ := t
    cases room with
    | none =>
      have hnext := ih (o := ⟨o.nextSeq + 1, o.isBroken⟩) hopen
      rw [List.map_cons, putEach, putAll, put_whole hopen]
      exact (List.prefix_append_right_inj _).mpr hnext
    | some n =>
      have hlater := putEach_broken (o := ⟨o.nextSeq + 1, true⟩) rfl tries
      rw [List.map_cons, putEach, putAll, put_partly hopen, put_whole hopen]
      simp only
      rw [hlater, List.append_nil]
      exact (List.take_prefix n _).trans (List.prefix_append _ _)

/-- What is written of the messages that are put: a frame for each, in order and nothing else, in
which the message is read with its number, counted from one on as far as numbers go. Where the front
end stops taking bytes, what was written is the beginning of that. -/
theorem messages_framed_in_order (messages : List Message)
    (hportable : ∀ m ∈ messages, m.Portable) :
    let whole := (({} : Outbox).putAll none messages).2
    (∃ bodies, splitFrames whole = (bodies, []) ∧ bodies.length = messages.length ∧
      ∀ i m, messages[i]? = some m → i + 1 < 2 ^ 64 → ∃ body, bodies[i]? = some body ∧
        Message.ofBytes? body = .ok (m.withSeq (i + 1)).withoutNull) ∧
    ∀ tries : List (Option Nat × Message), tries.map (·.2) = messages →
      (({} : Outbox).putEach tries).2 <+: whole := by
  intro whole
  refine ⟨⟨texts 1 messages, ?_, List.length_mapIdx, ?_⟩, ?_⟩
  · rw [show whole = _ from putAll_frames rfl messages]
    exact splitFrames_frames (texts 1 messages)
  · intro i m hm hi
    have hbody : (texts 1 messages)[i]? = some (m.withSeq (i + 1)).print := by
      rw [texts, List.getElem?_mapIdx, hm, Nat.add_comm 1 i]
      rfl
    exact ⟨_, hbody, Message.ofBytes_print (hportable m (List.mem_of_getElem? hm)) hi⟩
  · rintro tries rfl
    exact putEach_prefix rfl tries

/-- A failure without a body, a success whose body is null, and an event with text to escape. -/
theorem mixed_messages_framed :
    let failure : Response :=
      { requestSeq := 2 ^ 64 - 1, success := false, command := "\u00e9", message := some "\"\n\"" }
    let success : Response := { requestSeq := 0, command := "", body := some .null }
    let event : Event :=
      { event := "output", body := some (.record [("\\", .array [.int (-2 ^ 63), .bool true])]) }
    let messages : List Message := [.response failure, .response success, .event event]
    let whole := (({} : Outbox).putAll none messages).2
    (∃ first second third, splitFrames whole = ([first, second, third], []) ∧
      Message.ofBytes? first = .ok (.response { failure with seq := 1 }) ∧
      Message.ofBytes? second = .ok (.response { success with seq := 2, body := none }) ∧
      Message.ofBytes? third = .ok (.event { event with seq := 3 })) ∧
    (({} : Outbox).putEach
      [(none, .response failure), (some 30, .response success), (none, .event event)]).2 <+:
        whole := by
  intro failure success event messages whole
  have hbody : Json.Portable (maxDepth - 1)
      (.record [("\\", .array [.int (-2 ^ 63), .bool true])]) := by
    refine .record (by decide) ?_
    rw [List.forall_mem_singleton]
    refine .array ?_
    rw [List.forall_mem_cons, List.forall_mem_singleton]
    exact ⟨.int (by decide) (by decide), .bool⟩
  have hportable : ∀ m ∈ messages, m.Portable := by
    simp only [messages, List.forall_mem_cons, List.not_mem_nil, false_implies, implies_true,
      and_true]
    refine ⟨⟨by decide, by rintro _ ⟨⟩⟩, ⟨by decide, ?_⟩, ?_⟩
    · rintro _ ⟨⟩
      exact .null
    · rintro _ ⟨⟩
      exact hbody
  obtain ⟨⟨bodies, hsplit, hcount, hread⟩, hprefix⟩ := messages_framed_in_order messages hportable
  refine ⟨?_, hprefix _ rfl⟩
  obtain ⟨first, hfirst, hread₁⟩ := hread 0 _ rfl (by decide)
  obtain ⟨second, hsecond, hread₂⟩ := hread 1 _ rfl (by decide)
  obtain ⟨third, hthird, hread₃⟩ := hread 2 _ rfl (by decide)
  have hbodies : bodies = [first, second, third] := by
    match bodies, hcount with
    | [_, _, _], _ => simp_all
  exact ⟨first, second, third, hbodies ▸ hsplit, hread₁, hread₂, hread₃⟩

end Outbox
end DebugAdapter.Frontend
