import DebugAdapter.Frontend.Request
import DebugAdapter.Proofs.Json.RoundTrip

namespace DebugAdapter.Frontend.Request

open Json

/-- A request that survives being written: its number has 64 bits, and so has every number in its
arguments. -/
structure Portable (r : Request) : Prop where
  seq : r.seq < 2 ^ 64
  arguments : r.arguments.Portable (maxDepth - 1)

variable {limit fields : Nat} {first : Bool} {d d' : Draft} {name : String} {value : Json}
  {bytes text rest : Bytes} {r : Request}

theorem fields_portable (hr : r.Portable) :
    ∀ f ∈ r.toFields, f.2.Portable (maxDepth - 1) := by
  rw [toFields, List.forall_mem_cons, List.forall_mem_cons, List.forall_mem_cons,
    List.forall_mem_singleton]
  exact ⟨nat_portable hr.seq, .string, .string, hr.arguments⟩

/-- One step of reading fields, where a field of this name and text comes next. -/
theorem readDraft_field
    (hnext : nextField first bytes = .ok (.more (escaped name ++ Byte.quote :: Byte.colon :: text)))
    (hread : readField limit name d (Byte.colon :: text) = .ok (d', rest)) :
    readDraft limit (fields + 1) first d bytes = readDraft limit fields false d' rest := by
  rw [readDraft, hnext]
  simp only
  rw [readString_escaped]
  simp only
  rw [hread]

theorem readField_seq (hd : d.seq = none) {n : Nat} (hn : n < 2 ^ 64) (hrest : EndsNumber rest) :
    readField limit "seq" d (Byte.colon :: (Json.print (.nat n) ++ rest)) =
      .ok ({ d with seq := some n }, rest) := by
  simp only [readField, if_true, setOnce, hd, Option.isSome_none, Bool.false_eq_true, if_false,
    skipColon_colon, bind, Except.bind, readTypedWord_print hn hrest]
  rfl

theorem readField_type (hd : d.kind = none) (s : String) (rest : Bytes) :
    readField limit "type" d (Byte.colon :: (Json.print (.string s) ++ rest)) =
      .ok ({ d with kind := some s }, rest) := by
  simp only [readField, String.reduceEq, if_true, if_false, setOnce, hd, Option.isSome_none,
    Bool.false_eq_true, skipColon_colon, bind, Except.bind, readTypedString_print]
  rfl

theorem readField_command (hd : d.command = none) (s : String) (rest : Bytes) :
    readField limit "command" d (Byte.colon :: (Json.print (.string s) ++ rest)) =
      .ok ({ d with command := some s }, rest) := by
  simp only [readField, String.reduceEq, if_true, if_false, setOnce, hd, Option.isSome_none,
    Bool.false_eq_true, skipColon_colon, bind, Except.bind, readTypedString_print]
  rfl

theorem readField_arguments (hd : d.arguments = none)
    (hread : Reads (readValue limit (maxDepth - 1)) value) (hrest : EndsNumber rest) :
    readField limit "arguments" d (Byte.colon :: (Json.print value ++ rest)) =
      .ok ({ d with arguments := some value }, rest) := by
  simp only [readField, String.reduceEq, if_true, if_false, setOnce, hd, Option.isSome_none,
    Bool.false_eq_true, skipColon_colon, bind, Except.bind, hread rest hrest]
  rfl

theorem ofBytes_object (hbytes : bytes = Byte.leftBrace :: text)
    (hdraft : readDraft (itemLimit bytes) (itemLimit bytes) true {} text = .ok (d, []))
    (hfinish : d.finish = .ok r) : ofBytes? bytes = .ok r := by
  have hbracket : Byte.leftBrace ≠ Byte.leftBracket := by decide
  have hskip : skipBlanks bytes = Byte.leftBrace :: text := by
    rw [hbytes, skipBlanks_begins (by decide)]
  simp only [ofBytes?, hskip, hbracket, if_true, if_false, hdraft, hfinish]
  rfl

/-- The fields of a request are read in the order in which they are written. -/
theorem readDraft_print (hr : r.Portable) :
    ∃ text, r.print = Byte.leftBrace :: text ∧
      readDraft (itemLimit r.print) (itemLimit r.print) true {} text =
        .ok (⟨r.seq, r.kind, r.command, r.arguments⟩, []) := by
  have harguments : Reads (readValue (itemLimit r.print) (maxDepth - 1)) r.arguments :=
    reads_fields (fields_portable hr) ("arguments", r.arguments) (by simp [toFields])
  -- a round for each of the four fields, and one for the closing brace
  obtain ⟨more, hmore⟩ : ∃ more, itemLimit r.print = more + 5 := by
    have hcount := (length_record r.toFields).1
    exact Nat.exists_eq_add_of_le' (Nat.succ_le_succ (Nat.le_of_lt hcount))
  have hprint := print_record_cons "seq" (.nat r.seq) [("type", .string r.kind),
    ("command", .string r.command), ("arguments", r.arguments)] []
  rw [List.append_nil] at hprint
  refine ⟨_, hprint, ?_⟩
  conv => lhs; arg 2; rw [hmore]
  rw [readDraft_field (nextField_first _) (readField_seq rfl hr.seq (endsNumber_printFields _ _)),
    printFields_cons, readDraft_field (nextField_comma _) (readField_type rfl _ _),
    printFields_cons, readDraft_field (nextField_comma _) (readField_command rfl _ _),
    printFields_cons, readDraft_field (nextField_comma _)
      (readField_arguments rfl harguments (endsNumber_printFields _ _))]
  rfl

/-- A request is read as it was written. -/
theorem ofBytes_print (hr : r.Portable) : ofBytes? r.print = .ok r := by
  obtain ⟨text, hprint, hdraft⟩ := readDraft_print hr
  exact ofBytes_object hprint hdraft rfl

theorem print_legible (hr : r.Portable) : r.print.Legible :=
  record_legible fun f hf => Json.print_legible (fields_portable hr f hf)

end DebugAdapter.Frontend.Request
