import DebugAdapter.Proofs.Frontend.Arrival
import DebugAdapter.Proofs.Frontend.Requests
import Mathlib.Data.Nat.Digits.Defs

namespace DebugAdapter.Frontend

namespace Header

def ofLength (n : Nat) : Bytes :=
  Bytes.ofString ("Content-Length: " ++ toString n)

theorem ofLength_text (n : Nat) :
    "Content-Length: " ++ toString n =
      String.ofList ("Content-Length: ".toList ++ Nat.toDigits 10 n) := by
  rw [Nat.toString_eq_ofList_toDigits, String.ofList_append]
  rfl

theorem digits_not_mem {n : Nat} {c : Char} (hc : c.isDigit = false) : c ∉ Nat.toDigits 10 n := by
  intro hm
  have hdigit := Text.toDigits_isDigit n c hm
  rw [hc] at hdigit
  cases hdigit

/-- The header block of a body announces its length. -/
theorem bodyLength_ofLength {n : Nat} (hn : n ≤ maxBodyBytes) :
    bodyLength (ofLength n) = .ok n := by
  have hunbroken : '\r' ∉ ("Content-Length: " ++ toString n).toList := by
    rw [ofLength_text, String.toList_ofList, List.mem_append, not_or]
    exact ⟨by decide, digits_not_mem rfl⟩
  have hvalue : lengthValue? ("Content-Length: " ++ toString n).toList =
      some (Nat.toDigits 10 n) := by
    have hdigits : ∀ c ∈ Nat.toDigits 10 n, Text.isBlank c = false := fun c hc =>
      Text.isBlank_of_isDigit (Text.toDigits_isDigit n c hc)
    have hend : ∀ c ∈ ([] : List Char), Text.isBlank c := by simp
    have hline := lengthValue_line Nat.toDigits_ne_nil hdigits hend
    rwa [List.append_nil, ← String.toList_ofList (l := _ ++ _), ← ofLength_text] at hline
  have hword : n ≤ Text.maxWord := Nat.le_trans hn (by decide)
  exact bodyLength_line hunbroken hvalue (Text.readNumeral_toDigits hword) hn

theorem ofLength_legible (n : Nat) : (ofLength n).Legible := by
  have hname : Bytes.Legible (Bytes.ofString "Content-Length: ") := Bytes.legible_of_all rfl
  rw [ofLength, Bytes.ofString_append, ← Json.printNat_ofString]
  exact hname.append (Json.printNat_legible n)

theorem length_ofLength {n : Nat} (hn : n ≤ maxBodyBytes) : (ofLength n).length ≤ 8189 := by
  have hdigits : (Nat.toDigits 10 n).length ≤ 8 :=
    Nat.toDigits_length 10 n 8 (by decide) (Nat.lt_of_le_of_lt hn (by decide))
  have hname : (Bytes.ofString "Content-Length: ").length = 16 := rfl
  rw [ofLength, Bytes.ofString_append, ← Json.printNat_ofString, List.length_append, hname,
    Json.printNat, List.length_map]
  omega

end Header

variable {body rest : Bytes}

/-- A frame is cut behind its own header, whatever the body holds. -/
theorem cutBefore_frame (body rest : Bytes) :
    Bytes.cutBefore headerEnd (frame body ++ rest) =
      some (Header.ofLength body.length, body ++ rest) := by
  have hmark : (0x0D : UInt8) ∉ Header.ofLength body.length :=
    (Header.ofLength_legible _).not_mem (by decide)
  have hcut := Bytes.cutBefore_of_not_mem hmark [0x0A, 0x0D, 0x0A] (body ++ rest)
  rw [frame, List.append_assoc, List.append_assoc]
  exact hcut

namespace Decoder

/-- A frame is taken off with exactly its bytes. -/
theorem next_frame (hbody : body.length ≤ maxBodyBytes) (rest : Bytes) :
    (feed {} (frame body ++ rest)).next = .item (.ofBody body) (feed {} rest) :=
  next_whole (cutBefore_frame body rest) (Header.bodyLength_ofLength hbody)

variable {bodies : List Bytes} {block : Bytes}

/-- Frames of admissible bodies are decoded one by one, and nothing is left of them. -/
theorem drain_frames (hbodies : ∀ body ∈ bodies, body.length ≤ maxBodyBytes) :
    (feed {} (bodies.flatMap frame)).drain = (bodies.map .ofBody, none, {}) := by
  induction bodies with
  | nil => rfl
  | cons body bodies ih =>
    rw [List.forall_mem_cons] at hbodies
    rw [List.flatMap_cons, drain_item (next_frame hbodies.1 _), ih hbodies.2]
    rfl

/-- The only headers that are met are those of the frames. -/
theorem meets_ofLength (hbodies : ∀ body ∈ bodies, body.length ≤ maxBodyBytes)
    (hm : MeetsHeader (feed {} (bodies.flatMap frame)) block) :
    ∃ body ∈ bodies, block = Header.ofLength body.length := by
  induction bodies with
  | nil =>
    cases hm with
    | here _ cut => cases cut
    | later taken _ => cases taken
  | cons body bodies ih =>
    rw [List.forall_mem_cons] at hbodies
    rw [List.flatMap_cons] at hm
    rcases meets_whole (cutBefore_frame body _) (Header.bodyLength_ofLength hbodies.1) hm with
      rfl | met
    · exact ⟨body, List.mem_cons_self, rfl⟩
    · obtain ⟨later, hlater, hblock⟩ := ih hbodies.2 met
      exact ⟨later, List.mem_cons_of_mem body hlater, hblock⟩

/-- What a body is taken for: the text of a request for that request, and bytes that hold no request
for the text that can be made of them. -/
inductive Carries : Bytes → Incoming → Prop where
  | request {r : Request} (portable : r.Portable) : Carries r.print (.request r)
  | malformed {body : Bytes} {reason : Json.ReadError}
      (refused : Request.ofBytes? body = .error reason) :
    Carries body (.malformed (Text.lossy body) reason)

theorem Carries.ofBody {body : Bytes} {item : Incoming} (hc : Carries body item) :
    Incoming.ofBody body = item := by
  cases hc with
  | request portable => rw [Incoming.ofBody, Request.ofBytes_print portable]
  | malformed refused => rw [Incoming.ofBody, refused]

/-- Frames in any chunks are taken one by one and in order, a request as it was sent and any other
body as malformed, and nothing is left over. -/
theorem framed_requests_recovered (frames : List (Bytes × Incoming))
    (hcarries : ∀ f ∈ frames, Carries f.1 f.2) (hsize : ∀ f ∈ frames, f.1.length ≤ 16777216)
    (chunks : List Bytes) (hchunks : chunks.flatten = frames.flatMap fun f => frame f.1) :
    receive {} chunks = (frames.map (·.2), none, {}) := by
  have hbodies : ∀ body ∈ frames.map (·.1), body.length ≤ maxBodyBytes := by
    intro body hb
    obtain ⟨f, hf, rfl⟩ := List.mem_map.mp hb
    exact hsize f hf
  have hstream : chunks.flatten = (frames.map (·.1)).flatMap frame := by
    rw [hchunks, List.flatMap_map]
  have hitems : (frames.map (·.1)).map Incoming.ofBody = frames.map (·.2) := by
    rw [List.map_map]
    exact List.map_congr_left fun f hf => (hcarries f hf).ofBody
  have hshort : ∀ block, MeetsHeader (feed {} chunks.flatten) block → block.length ≤ 8189 := by
    intro block hm
    rw [hstream] at hm
    obtain ⟨body, hb, rfl⟩ := meets_ofLength hbodies hm
    exact Header.length_ofLength (hbodies body hb)
  obtain ⟨htaken, herror, hrest⟩ := receive_of_short chunks hshort
  rw [hstream, drain_frames hbodies] at htaken herror hrest
  rw [← hitems]
  exact Prod.ext htaken (Prod.ext herror (hrest herror))

/-- A request with the largest number and with text to escape. -/
def extremeRequest : Request where
  seq := 2 ^ 64 - 1
  command := "say \"\\\n\u00e9\u0001\""
  arguments := .record [("", .array [.int (-2 ^ 63), .null]), ("\u20ac", .int (2 ^ 64 - 1))]

/-- No request: the end of a header, a header, and a byte that belongs to no text. -/
def headerInBody : Bytes :=
  Bytes.ofString "\r\n\r\nContent-Length: 1\r\n\r\n" ++ [0xFF]

/-- Byte by byte: a body that looks like a header, an empty one, and a request. -/
theorem header_in_body_passed_over :
    let frames : List (Bytes × Incoming) :=
      [(headerInBody, .malformed "\r\n\r\nContent-Length: 1\r\n\r\n\ufffd" .expectedValue),
        ([], .malformed "" .endOfValue), (extremeRequest.print, .request extremeRequest)]
    receive {} ((frames.flatMap fun f => frame f.1).map fun b => [b]) =
      (frames.map (·.2), none, {}) := by
  intro frames
  have hportable : extremeRequest.Portable := by
    refine ⟨by decide, .record (by decide) ?_⟩
    simp only [List.forall_mem_cons, List.not_mem_nil, false_implies, implies_true, and_true]
    refine ⟨.array ?_, .int (by decide) (by decide)⟩
    simp only [List.forall_mem_cons, List.not_mem_nil, false_implies, implies_true, and_true]
    exact ⟨.int (by decide) (by decide), .null⟩
  have hlossy : Text.lossy headerInBody = "\r\n\r\nContent-Length: 1\r\n\r\n\ufffd" := by decide
  refine framed_requests_recovered frames ?_ ?_ _ ?_
  · simp only [frames, List.forall_mem_cons, List.not_mem_nil, false_implies, implies_true,
      and_true]
    exact ⟨hlossy ▸ .malformed rfl, .malformed rfl, .request hportable⟩
  · simp only [frames, List.forall_mem_cons, List.not_mem_nil, false_implies, implies_true,
      and_true]
    exact ⟨by decide, by decide, by decide +kernel⟩
  · rw [← List.flatMap_def, List.flatMap_singleton']

end Decoder
end DebugAdapter.Frontend
