import DebugAdapter.Proofs.Debuggee.Lines
import DebugAdapter.Proofs.Json.RoundTrip

namespace DebugAdapter.Debuggee

open Json

namespace Record

/-- A record that survives being written. -/
def Portable : Record → Prop
  | event _ body => body.Portable (maxDepth - 1)
  | reply r => r.body.Portable (maxDepth - 1) ∧ ∀ seq ∈ r.requestSeq, seq < 2 ^ 64

def details (r : Record) : Fields :=
  r.toFields.tail

variable {r : Record} {item : Bytes → Read Json} {limit : Nat} {fields : Fields}
  {kind : Option Kind}

theorem toFields_eq (r : Record) : r.toFields = ("type", .string r.kind) :: r.details := by
  cases r <;> rfl

theorem details_portable (hr : r.Portable) :
    ∀ f ∈ r.details, f.1 ≠ "type" ∧ f.2.Portable (maxDepth - 1) := by
  cases r with
  | event name body =>
    have hdetails : details (.event name body) = [("event", .string name), ("body", body)] := rfl
    rw [hdetails, List.forall_mem_cons, List.forall_mem_singleton]
    exact ⟨⟨by simp, .string⟩, ⟨by simp, hr⟩⟩
  | reply r =>
    obtain ⟨hbody, hseq⟩ := hr
    have hdetails : details (.reply r) = [("command", .string r.command), ("body", r.body),
        ("success", .bool r.success)] ++
      (r.requestSeq.toList.map fun seq => ("request_seq", .nat seq)) ++
      (r.message.toList.map fun message => ("message", .string message)) := rfl
    intro f hf
    rw [hdetails, List.mem_append, List.mem_append] at hf
    rcases hf with (hf | hf) | hf
    · simp only [List.mem_cons, List.not_mem_nil, or_false] at hf
      rcases hf with rfl | rfl | rfl
      · exact ⟨by simp, .string⟩
      · exact ⟨by simp, hbody⟩
      · exact ⟨by simp, .bool⟩
    · obtain ⟨seq, hs, rfl⟩ := List.mem_map.mp hf
      exact ⟨by simp, nat_portable (hseq seq (Option.mem_toList.mp hs))⟩
    · obtain ⟨message, _, rfl⟩ := List.mem_map.mp hf
      exact ⟨by simp, .string⟩

theorem fields_portable (hr : r.Portable) : ∀ f ∈ r.toFields, f.2.Portable (maxDepth - 1) := by
  rw [toFields_eq, List.forall_mem_cons]
  exact ⟨.string, fun f hf => (details_portable hr f hf).2⟩

/-- What a record prints of itself is what it is read from. -/
theorem ofFields_details (r : Record) :
    ∃ kind, Kind.ofName r.kind = .ok kind ∧ ofFields kind r.details = .ok r := by
  cases r with
  | event name body => exact ⟨.event, rfl, rfl⟩
  | reply r =>
    obtain ⟨command, body, success, requestSeq, message⟩ := r
    refine ⟨.reply, rfl, ?_⟩
    cases requestSeq <;> cases message <;> rfl

/-- Printed fields are read back one by one, up to the brace behind them. -/
theorem readFields_print (hfields : ∀ f ∈ fields, f.1 ≠ "type" ∧ Reads item f.2)
    (hlimit : fields.length < limit) (done : Fields) (rest : Bytes) :
    readFields item limit false kind done (printFields fields ++ rest) =
      .ok ((kind, done.reverse ++ fields), rest) := by
  induction fields generalizing limit done with
  | nil =>
    obtain ⟨limit, rfl⟩ := Nat.exists_eq_add_one_of_ne_zero (Nat.ne_zero_of_lt hlimit)
    rw [List.append_nil]
    rfl
  | cons f fields ih =>
    obtain ⟨name, value⟩ := f
    obtain ⟨limit, rfl⟩ := Nat.exists_eq_add_one_of_ne_zero (Nat.ne_zero_of_lt hlimit)
    rw [List.forall_mem_cons] at hfields
    obtain ⟨⟨hname, hvalue⟩, hfields⟩ := hfields
    have hitem := hvalue (printFields fields ++ rest) (endsNumber_printFields fields rest)
    rw [printFields_cons, readFields, nextField_comma]
    simp only
    rw [readString_escaped]
    simp only
    rw [if_neg hname, skipColon_colon]
    simp only
    rw [hitem]
    simp only
    rw [ih hfields (by simpa using hlimit)]
    simp

/-- The kind is read where it is written, before all other fields. -/
theorem readFields_kind {name : String} {found : Kind} (hname : Kind.ofName name = .ok found)
    (rest : Bytes) :
    readFields item (limit + 1) true none [] (Byte.quote :: (escaped "type" ++ Byte.quote ::
      Byte.colon :: (Json.print (.string name) ++ rest))) =
    readFields item limit false (some found) [] rest := by
  have hkind : readKind (Json.print (.string name) ++ rest) = .ok (found, rest) := by
    rw [readKind, readTypedString_print]
    simp only [hname]
    rfl
  rw [readFields, nextField_first]
  simp only
  rw [readString_escaped]
  simp only [if_true, setOnce, Option.isSome_none, Bool.false_eq_true, if_false, skipColon_colon]
  rw [hkind]

/-- The fields of a record are read in the order in which they are written. -/
theorem readObject_print (hr : r.Portable) :
    ∃ text, r.print = Byte.leftBrace :: text ∧
      readObject (itemLimit r.print) text = .ok (r, []) := by
  obtain ⟨kind, hkind, hfields⟩ := ofFields_details r
  have hprint := print_record_cons "type" (.string r.kind) r.details []
  rw [List.append_nil, ← toFields_eq] at hprint
  have hdetails : ∀ f ∈ r.details,
      f.1 ≠ "type" ∧ Reads (readValue (itemLimit r.print) (maxDepth - 1)) f.2 := by
    intro f hf
    have hmem : f ∈ r.toFields := by
      rw [toFields_eq]
      exact List.mem_cons_of_mem _ hf
    exact ⟨(details_portable hr f hf).1, reads_fields (fields_portable hr) f hmem⟩
  have hlimit : r.details.length < r.print.length := by
    have hall : r.toFields.length < r.print.length := (length_record r.toFields).1
    rw [toFields_eq, List.length_cons] at hall
    omega
  refine ⟨_, hprint, ?_⟩
  have hread : readFields (readValue (itemLimit r.print) (maxDepth - 1)) (itemLimit r.print) true
      none [] (Byte.quote :: (escaped "type" ++ Byte.quote :: Byte.colon ::
        (Json.print (.string r.kind) ++ (printFields r.details ++ [])))) =
      .ok ((some kind, r.details), []) := by
    conv => lhs; arg 2; rw [itemLimit]
    rw [readFields_kind hkind, readFields_print hdetails hlimit]
    rfl
  rw [readObject, hread]
  simp only [hfields]
  rfl

theorem ofBytes_object {bytes text : Bytes} (hbytes : bytes = Byte.leftBrace :: text)
    (hread : readObject (itemLimit bytes) text = .ok (r, [])) : ofBytes? bytes = .ok r := by
  have hbracket : Byte.leftBrace ≠ Byte.leftBracket := by decide
  have hskip : skipBlanks bytes = Byte.leftBrace :: text := by
    rw [hbytes, skipBlanks_begins (by decide)]
  simp only [ofBytes?, hskip, hbracket, if_true, if_false, hread]
  rfl

/-- A record is read as it was written. -/
theorem ofBytes_print (hr : r.Portable) : ofBytes? r.print = .ok r := by
  obtain ⟨text, hprint, hread⟩ := readObject_print hr
  exact ofBytes_object hprint hread

/-- The text of a record stands between two braces. -/
theorem print_between (hr : r.Portable) :
    ∃ middle : Bytes, middle.Legible ∧
      r.print = Byte.leftBrace :: (middle ++ [Byte.rightBrace]) :=
  record_between fun f hf => Json.print_legible (fields_portable hr f hf)

theorem print_legible (hr : r.Portable) : r.print.Legible :=
  record_legible fun f hf => Json.print_legible (fields_portable hr f hf)

end Record

inductive LineEnd where
  | feed
  | returnFeed
deriving DecidableEq, Repr

namespace LineEnd

def bytes : LineEnd → Bytes
  | feed => [0x0A]
  | returnFeed => [0x0D, 0x0A]

def kept : LineEnd → Bytes
  | feed => []
  | returnFeed => [0x0D]

theorem bytes_eq (ending : LineEnd) : ending.bytes = ending.kept ++ [lineFeed] := by
  cases ending <;> rfl

end LineEnd

variable {r : Record}

/-- A record is read off its line. -/
theorem ofLine_print (hr : r.Portable) (ending : LineEnd) :
    Output.ofLine? (r.print ++ ending.kept) = some (.record r) := by
  obtain ⟨middle, ⟨⟨text, rfl⟩, _⟩, hprint⟩ := r.print_between hr
  have hkept : ∃ blanks : List Char, ending.kept = Bytes.ofString (String.ofList blanks) ∧
      ∀ c ∈ blanks, Text.isBlank c := by
    cases ending with
    | feed => exact ⟨[], rfl, by simp⟩
    | returnFeed => exact ⟨['\r'], rfl, List.forall_mem_singleton.mpr rfl⟩
  obtain ⟨blanks, hblanks, hblank⟩ := hkept
  have htext : r.print = Bytes.ofString (String.ofList ('\x7b' :: (text.toList ++ ['\x7d']))) := by
    have hopen : String.utf8EncodeChar '\x7b' = [Byte.leftBrace] := rfl
    have hclose : String.utf8EncodeChar '\x7d' = [Byte.rightBrace] := rfl
    rw [hprint, Bytes.ofString_eq_flatMap, Bytes.ofString_eq_flatMap, String.toList_ofList,
      List.flatMap_cons, List.flatMap_append, List.flatMap_singleton, hopen, hclose]
    rfl
  have hbefore : ∀ c ∈ ([] : List Char), Text.isBlank c := by simp
  have hne : '\x7b' :: (text.toList ++ ['\x7d']) ≠ [] := List.cons_ne_nil _ _
  have hfirst : ∀ c ∈ ('\x7b' :: (text.toList ++ ['\x7d'])).head?, Text.isBlank c = false := by
    rintro _ ⟨⟩
    rfl
  have hlast : ∀ c ∈ ('\x7b' :: (text.toList ++ ['\x7d'])).getLast?, Text.isBlank c = false := by
    rw [← List.cons_append, List.getLast?_concat]
    rintro _ ⟨⟩
    rfl
  have htrim := Text.trim_eq hbefore hblank hne hfirst hlast
  rw [List.nil_append] at htrim
  have hread := Record.ofBytes_print hr
  rw [htext] at hread
  rw [htext, hblanks, ← Bytes.ofString_append, ← String.ofList_append, Output.ofLine?,
    Bytes.toString?_ofString]
  simp only [String.toList_ofList, htrim, hread]

/-- A line says one thing at most. -/
theorem length_reading_le (line : Bytes) : (reading line).length ≤ 1 := by
  by_cases hl : line.length ≤ maxLineBytes
  · rw [reading_kept hl]
    cases Output.ofLine? line <;> simp
  · rw [reading_tooLong (Nat.lt_of_not_le hl)]
    rfl

namespace LineDecoder

variable {d : LineDecoder}

theorem receive_settled (hd : d.Settled) (chunks : List Bytes) : (d.receive chunks).2.Settled := by
  induction chunks generalizing d with
  | nil => exact hd
  | cons chunk chunks ih => exact ih (d.feed chunk).drain_owed.2

theorem length_owed_le (hd : d.Settled) {more : Bytes} (hmore : lineFeed ∉ more) :
    (d.owed more).length ≤ 1 := by
  obtain ⟨discarding, buffer⟩ := d
  cases discarding with
  | true =>
    obtain rfl : buffer = [] := hd
    have hnone : owed ⟨true, []⟩ more = [] := by
      simp [owed, laterReadings, List.splitOn_eq_singleton hmore]
    simp [hnone]
  | false =>
    obtain ⟨hbuffer, _⟩ : lineFeed ∉ buffer ∧ _ := hd
    have hline : lineFeed ∉ buffer ++ more := by
      rw [List.mem_append, not_or]
      exact ⟨hbuffer, hmore⟩
    have howed : owed ⟨false, buffer⟩ more = reading (buffer ++ more) := readings_line hline
    rw [howed]
    exact length_reading_le _

/-- Where a stream ends with a line, nothing is left over. -/
theorem receive_ended {chunks : List Bytes}
    (hended : ∀ more,
      readings (chunks.flatten ++ more) = readings chunks.flatten ++ readings more) :
    (receive {} chunks).1 = readings chunks.flatten ∧ (receive {} chunks).2.finish.1 = [] := by
  have hstart : Settled {} := ⟨List.not_mem_nil, Nat.zero_le _⟩
  have hsettled := receive_settled hstart chunks
  have hnow : readings chunks.flatten = (receive {} chunks).1 ++ (receive {} chunks).2.owed [] := by
    have h := receive_owed {} chunks []
    rwa [List.append_nil] at h
  -- one more line shows that none is pending
  have hlater := receive_owed {} chunks [0x78]
  have hone : (readings [0x78]).length = 1 := rfl
  have hlast : ((receive {} chunks).2.owed [0x78]).length ≤ 1 := length_owed_le hsettled (by decide)
  have hcount := congrArg List.length ((hended [0x78]).symm.trans hlater)
  have hcount' := congrArg List.length hnow
  rw [List.length_append, List.length_append] at hcount
  rw [List.length_append] at hcount'
  have hnothing : (receive {} chunks).2.owed [] = [] := List.eq_nil_of_length_eq_zero (by omega)
  rw [finish_owed, hnothing]
  rw [hnothing, List.append_nil] at hnow
  exact ⟨hnow.symm, rfl⟩

end LineDecoder

variable {lines : List (Record × LineEnd)}

/-- What lines with records say, and what comes behind them. -/
theorem readings_records (hportable : ∀ l ∈ lines, l.1.Portable)
    (hsize : ∀ l ∈ lines, l.1.print.length ≤ 8388607) (more : Bytes) :
    readings ((lines.flatMap fun l => l.1.print ++ l.2.bytes) ++ more) =
      lines.map (fun l => .record l.1) ++ readings more := by
  induction lines with
  | nil => rfl
  | cons l lines ih =>
    obtain ⟨r, ending⟩ := l
    rw [List.forall_mem_cons] at hportable hsize
    have hlast : ending.kept.length ≤ 1 := by cases ending <;> decide
    have hlength : (r.print ++ ending.kept).length ≤ maxLineBytes := by
      have hmax : maxLineBytes = 8388607 + 1 := rfl
      rw [List.length_append, hmax]
      exact Nat.add_le_add hsize.1 hlast
    have hline : lineFeed ∉ r.print ++ ending.kept := by
      rw [List.mem_append, not_or]
      refine ⟨(Record.print_legible hportable.1).not_mem (by decide), ?_⟩
      cases ending <;> decide
    have hstream : ((r, ending) :: lines).flatMap (fun l => l.1.print ++ l.2.bytes) ++ more =
        (r.print ++ ending.kept) ++
          lineFeed :: ((lines.flatMap fun l => l.1.print ++ l.2.bytes) ++ more) := by
      simp [LineEnd.bytes_eq]
    rw [hstream, readings_append, readings_line hline, reading_kept hlength,
      ofLine_print hportable.1, ih hportable.2 hsize.2]
    rfl

/-- Records written line by line are read in order, and nothing else, in whatever pieces they
arrive. -/
theorem records_read_through_lines (lines : List (Record × LineEnd))
    (hportable : ∀ l ∈ lines, l.1.Portable) (hsize : ∀ l ∈ lines, l.1.print.length ≤ 8388607)
    (chunks : List Bytes)
    (hchunks : chunks.flatten = lines.flatMap fun l => l.1.print ++ l.2.bytes) :
    (LineDecoder.receive {} chunks).1 = lines.map (fun l => .record l.1) ∧
      (LineDecoder.receive {} chunks).2.finish.1 = [] := by
  have hread := readings_records hportable hsize
  rw [← hchunks] at hread
  have hnow : readings chunks.flatten = lines.map fun l => .record l.1 := by
    have h := hread []
    rw [List.append_nil] at h
    exact h.trans (List.append_nil _)
  rw [← hnow]
  exact LineDecoder.receive_ended fun more => by rw [hread, hnow]

/-- Byte by byte: an event without a body, a reply that leaves out what it can, and one that has
everything and text to escape. -/
theorem records_read_byte_by_byte :
    let event : Record := .event "\u00a0" .null
    let short : Record := .reply { command := "", success := false }
    let full : Record := .reply
      { command := "\r\n\"\\"
        body := .record [("", .array [.null, .int (2 ^ 64 - 1)]), ("\u0085", .string "\x7d\n")]
        requestSeq := some (2 ^ 64 - 1)
        message := some "" }
    let stream := event.print ++ [0x0D, 0x0A] ++ (short.print ++ [0x0A]) ++
      (full.print ++ [0x0D, 0x0A])
    (LineDecoder.receive {} (stream.map fun b => [b])).1 =
        [.record event, .record short, .record full] ∧
      (LineDecoder.receive {} (stream.map fun b => [b])).2.finish.1 = [] := by
  intro event short full stream
  have hbody : Json.Portable (maxDepth - 1)
      (.record [("", .array [.null, .int (2 ^ 64 - 1)]), ("\u0085", .string "\x7d\n")]) := by
    refine .record (by decide) ?_
    rw [List.forall_mem_cons, List.forall_mem_singleton]
    refine ⟨.array ?_, .string⟩
    rw [List.forall_mem_cons, List.forall_mem_singleton]
    exact ⟨.null, .int (by decide) (by decide)⟩
  have hfull : full.Portable := by
    refine ⟨hbody, ?_⟩
    rintro _ ⟨⟩
    decide
  have hshort : short.Portable := ⟨.null, by rintro _ ⟨⟩⟩
  refine records_read_through_lines [(event, .returnFeed), (short, .feed), (full, .returnFeed)]
    ?_ ?_ _ ?_
  · rw [List.forall_mem_cons, List.forall_mem_cons, List.forall_mem_singleton]
    exact ⟨.null, hshort, hfull⟩
  · rw [List.forall_mem_cons, List.forall_mem_cons, List.forall_mem_singleton]
    exact ⟨by decide +kernel, by decide +kernel, by decide +kernel⟩
  · rw [← List.flatMap_def, List.flatMap_singleton']
    simp [stream, LineEnd.bytes]

end DebugAdapter.Debuggee
