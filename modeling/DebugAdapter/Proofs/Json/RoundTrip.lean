import DebugAdapter.Json.Typed
import DebugAdapter.Proofs.Json.Pieces

namespace DebugAdapter.Json

/-- A value that survives being written: its numbers are whole and have 64 bits, its objects keep
their fields in ascending order, and it has at most `depth` levels of lists and objects. -/
inductive Portable : Nat → Json → Prop where
  | null {depth : Nat} : Portable depth .null
  | bool {depth : Nat} {b : Bool} : Portable depth (.bool b)
  | int {depth : Nat} {i : Int} (low : -2 ^ 63 ≤ i) (high : i < 2 ^ 64) :
    Portable depth (.number (.int i))
  | string {depth : Nat} {s : String} : Portable depth (.string s)
  | array {depth : Nat} {items : List Json} (each : ∀ item ∈ items, Portable depth item) :
    Portable (depth + 1) (.array items)
  | record {depth : Nat} {fields : Fields} (ascending : fields.Pairwise (·.1 < ·.1))
      (each : ∀ field ∈ fields, Portable depth field.2) : Portable (depth + 1) (.record fields)

variable {depth limit : Nat} {j : Json} {items : List Json} {fields : Fields} {b : UInt8}

theorem insert_last {fields : Fields} {name : String} {value : Json}
    (hlast : ∀ field ∈ fields, field.1 < name) :
    Fields.insert name value fields = fields ++ [(name, value)] := by
  induction fields with
  | nil => rfl
  | cons field fields ih =>
    obtain ⟨n, v⟩ := field
    rw [List.forall_mem_cons] at hlast
    have hn : ¬ name < n := String.lt_asymm hlast.1
    have hne : name ≠ n := by
      rintro rfl
      exact String.lt_irrefl name hlast.1
    rw [Fields.insert, if_neg hn, if_neg hne, ih hlast.2]
    rfl

/-- Fields that are read in ascending order are kept in it. -/
theorem foldl_insert_ascending {done fields : Fields}
    (hascending : (done ++ fields).Pairwise (·.1 < ·.1)) :
    fields.foldl (fun done field => Fields.insert field.1 field.2 done) done = done ++ fields := by
  induction fields generalizing done with
  | nil => simp
  | cons field fields ih =>
    have hlast : ∀ f ∈ done, f.1 < field.1 := by
      intro f hf
      exact (List.pairwise_append.mp hascending).2.2 f hf field (by simp)
    rw [List.foldl_cons, insert_last hlast, ih]
    · simp
    · simpa using hascending

/-- Fields that are in ascending order already are left as they are. -/
theorem object_ascending (hascending : fields.Pairwise (·.1 < ·.1)) :
    object fields = .record fields := by
  rw [object, Fields.normalize, foldl_insert_ascending]
  · simp
  · simpa using hascending

/-- No blank, and no closing bracket. -/
def Begins (b : UInt8) : Prop :=
  Byte.isBlank b = false ∧ b ≠ Byte.rightBracket
deriving Decidable

theorem ne_of_number {c : UInt8} (hb : b = Byte.minus ∨ Byte.isDigit b)
    (hc : ¬ (c = Byte.minus ∨ Byte.isDigit c)) : b ≠ c := by
  rintro rfl
  exact hc hb

theorem begins_number (hb : b = Byte.minus ∨ Byte.isDigit b) : Begins b := by
  refine ⟨?_, ne_of_number hb (by decide)⟩
  have hspace : b ≠ 0x20 := ne_of_number hb (by decide)
  have htab : b ≠ 0x09 := ne_of_number hb (by decide)
  have hline : b ≠ 0x0A := ne_of_number hb (by decide)
  have hreturn : b ≠ 0x0D := ne_of_number hb (by decide)
  simp [Byte.isBlank, hspace, htab, hline, hreturn]

theorem print_head (hj : Portable depth j) : ∃ b more, print j = b :: more ∧ Begins b := by
  cases hj with
  | null => exact ⟨_, _, rfl, by decide, by decide⟩
  | @bool _ b =>
    cases b with
    | false => exact ⟨_, _, rfl, by decide, by decide⟩
    | true => exact ⟨_, _, rfl, by decide, by decide⟩
  | @int _ i =>
    obtain ⟨b, more, hprint, hb⟩ := printInt_head i
    exact ⟨b, more, by rw [print, printNumber, hprint], begins_number hb⟩
  | string => exact ⟨_, _, by rw [print, printString_eq], by decide, by decide⟩
  | @array _ items =>
    cases items with
    | nil => exact ⟨_, _, rfl, by decide, by decide⟩
    | cons item items => exact ⟨_, _, by rw [print]; rfl, by decide, by decide⟩
  | @record _ fields =>
    cases fields with
    | nil => exact ⟨_, _, rfl, by decide, by decide⟩
    | cons field fields => exact ⟨_, _, by rw [print]; rfl, by decide, by decide⟩

theorem endsNumber_printItems (items : List Json) (rest : Bytes) :
    EndsNumber (printItems items ++ rest) := by
  cases items <;> simp [printItems, EndsNumber] <;> decide

theorem endsNumber_printFields (fields : Fields) (rest : Bytes) :
    EndsNumber (printFields fields ++ rest) := by
  cases fields <;> simp [printFields, EndsNumber] <;> decide

theorem skipBlanks_begins (hb : Byte.isBlank b = false) (rest : Bytes) :
    skipBlanks (b :: rest) = b :: rest :=
  List.dropWhile_cons_of_neg (by simp [hb])

theorem nextItem_first (hb : Begins b) (rest : Bytes) :
    nextItem true (b :: rest) = .ok (.more (b :: rest)) := by
  rw [nextItem, skipBlanks_begins hb.1]
  simp only [hb.2, if_true, if_false]

theorem nextItem_comma (hb : Begins b) (rest : Bytes) :
    nextItem false (Byte.comma :: b :: rest) = .ok (.more (b :: rest)) := by
  have hcomma : Byte.comma ≠ Byte.rightBracket := by decide
  rw [nextItem, skipBlanks_begins (by decide)]
  simp only [hcomma, skipBlanks_begins hb.1, hb.2, if_true, if_false, Bool.false_eq_true]

theorem nextField_first (rest : Bytes) : nextField true (Byte.quote :: rest) = .ok (.more rest) :=
  rfl

theorem nextField_comma (rest : Bytes) :
    nextField false (Byte.comma :: Byte.quote :: rest) = .ok (.more rest) :=
  rfl

theorem skipColon_colon (rest : Bytes) : skipColon (Byte.colon :: rest) = .ok rest :=
  rfl

theorem print_record_cons (name : String) (value : Json) (fields : Fields) (rest : Bytes) :
    print (.record ((name, value) :: fields)) ++ rest =
      Byte.leftBrace :: Byte.quote :: (escaped name ++ Byte.quote :: Byte.colon ::
        (print value ++ (printFields fields ++ rest))) := by
  simp [print, printString_eq]

theorem printFields_cons (name : String) (value : Json) (fields : Fields) (rest : Bytes) :
    printFields ((name, value) :: fields) ++ rest =
      Byte.comma :: Byte.quote :: (escaped name ++ Byte.quote :: Byte.colon ::
        (print value ++ (printFields fields ++ rest))) := by
  simp [printFields, printString_eq]

theorem readName_escaped (name : String) (rest : Bytes) :
    readName (escaped name ++ Byte.quote :: Byte.colon :: rest) = .ok (name, rest) := by
  rw [readName, readString_escaped]
  simp only [skipColon_colon]
  rfl

/-- A reader takes back what was written of a value, where no number goes on. -/
def Reads (item : Bytes → Read Json) (j : Json) : Prop :=
  ∀ rest, EndsNumber rest → item (print j ++ rest) = .ok (j, rest)

/-- Printed items are read back one by one, up to the bracket behind them. -/
theorem readItems_print {item : Bytes → Read Json} (hitems : ∀ j ∈ items, Portable depth j)
    (hread : ∀ j ∈ items, Reads item j) (hlimit : items.length < limit) (done : List Json)
    (rest : Bytes) :
    readItems item limit false done (printItems items ++ rest) =
      .ok (done.reverse ++ items, rest) := by
  induction items generalizing limit done with
  | nil =>
    obtain ⟨limit, rfl⟩ := Nat.exists_eq_add_one_of_ne_zero (Nat.ne_zero_of_lt hlimit)
    rw [List.append_nil]
    rfl
  | cons j items ih =>
    obtain ⟨limit, rfl⟩ := Nat.exists_eq_add_one_of_ne_zero (Nat.ne_zero_of_lt hlimit)
    rw [List.forall_mem_cons] at hitems hread
    have hlimit' : items.length < limit := by simpa using hlimit
    obtain ⟨b, more, hprint, hb⟩ := print_head hitems.1
    have hitem := hread.1 (printItems items ++ rest) (endsNumber_printItems items rest)
    have hnext : nextItem false (printItems (j :: items) ++ rest) =
        .ok (.more (print j ++ (printItems items ++ rest))) := by
      rw [printItems, List.cons_append, List.cons_append, List.append_assoc, hprint]
      exact nextItem_comma hb _
    rw [readItems, hnext]
    simp only
    rw [hitem]
    simp only
    rw [ih hitems.2 hread.2 hlimit']
    simp

theorem readFields_print {item : Bytes → Read Json} (hread : ∀ field ∈ fields, Reads item field.2)
    (hlimit : fields.length < limit) (done : Fields) (rest : Bytes) :
    readFields item limit false done (printFields fields ++ rest) =
      .ok (done.reverse ++ fields, rest) := by
  induction fields generalizing limit done with
  | nil =>
    obtain ⟨limit, rfl⟩ := Nat.exists_eq_add_one_of_ne_zero (Nat.ne_zero_of_lt hlimit)
    rw [List.append_nil]
    rfl
  | cons field fields ih =>
    obtain ⟨name, value⟩ := field
    obtain ⟨limit, rfl⟩ := Nat.exists_eq_add_one_of_ne_zero (Nat.ne_zero_of_lt hlimit)
    rw [List.forall_mem_cons] at hread
    have hlimit' : fields.length < limit := by simpa using hlimit
    have hvalue := hread.1 (printFields fields ++ rest) (endsNumber_printFields fields rest)
    rw [printFields_cons, readFields, nextField_comma]
    simp only
    rw [readName_escaped]
    simp only
    rw [hvalue]
    simp only
    rw [ih hread.2 hlimit']
    simp

/-- A list prints more bytes than it has items, so the limit on items is never met. -/
theorem length_lt_printItems (items : List Json) : items.length < (printItems items).length := by
  induction items with
  | nil => decide
  | cons j items ih =>
    simp only [printItems, List.length_append, List.length_cons]
    omega

theorem length_le_printItems (hj : j ∈ items) : (print j).length ≤ (printItems items).length := by
  induction items with
  | nil => cases hj
  | cons item items ih =>
    simp only [printItems, List.length_append, List.length_cons]
    rcases List.mem_cons.mp hj with rfl | hj
    · omega
    · have := ih hj
      omega

theorem length_lt_printFields (fields : Fields) : fields.length < (printFields fields).length := by
  induction fields with
  | nil => decide
  | cons field fields ih =>
    simp only [printFields, List.length_append, List.length_cons]
    omega

theorem length_le_printFields {field : String × Json} (hf : field ∈ fields) :
    (print field.2).length ≤ (printFields fields).length := by
  induction fields with
  | nil => cases hf
  | cons f fields ih =>
    simp only [printFields, List.length_append, List.length_cons]
    rcases List.mem_cons.mp hf with rfl | hf
    · omega
    · have := ih hf
      omega

theorem readValue_scalar (hb : Begins b) (hlist : b ≠ Byte.leftBracket)
    (hobject : b ≠ Byte.leftBrace) (limit depth : Nat) (rest : Bytes) :
    readValue limit depth (b :: rest) = readScalar (b :: rest) := by
  unfold readValue
  rw [skipBlanks_begins hb.1]
  simp only [hlist, hobject, if_false]

theorem readScalar_number (hb : b = Byte.minus ∨ Byte.isDigit b) (rest : Bytes) :
    readScalar (b :: rest) = (readNumber (b :: rest)).map fun (n, rest) => (.number n, rest) := by
  have hquote : b ≠ Byte.quote := ne_of_number hb (by decide)
  rw [readScalar, if_neg hquote, if_pos hb]

theorem readValue_list (limit depth : Nat) (rest : Bytes) :
    readValue limit (depth + 1) (Byte.leftBracket :: rest) =
      (readItems (readValue limit depth) limit true [] rest).map
        fun (items, rest) => (.array items, rest) := by
  rfl

theorem readValue_object (limit depth : Nat) (rest : Bytes) :
    readValue limit (depth + 1) (Byte.leftBrace :: rest) =
      (readFields (readValue limit depth) limit true [] rest).map
        fun (fields, rest) => (object fields, rest) := by
  rfl

/-- The items of a list are read up to its closing bracket. -/
theorem readItems_array {item : Bytes → Read Json} (hitems : ∀ j ∈ items, Portable depth j)
    (hread : ∀ j ∈ items, Reads item j) (hlimit : items.length < limit) (rest : Bytes) :
    ∃ text, print (.array items) ++ rest = Byte.leftBracket :: text ∧
      readItems item limit true [] text = .ok (items, rest) := by
  obtain ⟨limit, rfl⟩ := Nat.exists_eq_add_one_of_ne_zero (Nat.ne_zero_of_lt hlimit)
  cases items with
  | nil => exact ⟨_, rfl, rfl⟩
  | cons j items =>
    rw [List.forall_mem_cons] at hitems hread
    obtain ⟨b, more, hprint, hb⟩ := print_head hitems.1
    refine ⟨print j ++ (printItems items ++ rest), by simp [print], ?_⟩
    have hitem := hread.1 (printItems items ++ rest) (endsNumber_printItems items rest)
    have hnext : nextItem true (print j ++ (printItems items ++ rest)) =
        .ok (.more (print j ++ (printItems items ++ rest))) := by
      rw [hprint]
      exact nextItem_first hb _
    rw [readItems, hnext]
    simp only
    rw [hitem]
    simp only
    rw [readItems_print hitems.2 hread.2 (by simpa using hlimit)]
    rfl

/-- The fields of an object are read up to its closing brace. -/
theorem readFields_record {item : Bytes → Read Json} (hread : ∀ field ∈ fields, Reads item field.2)
    (hlimit : fields.length < limit) (rest : Bytes) :
    ∃ text, print (.record fields) ++ rest = Byte.leftBrace :: text ∧
      readFields item limit true [] text = .ok (fields, rest) := by
  obtain ⟨limit, rfl⟩ := Nat.exists_eq_add_one_of_ne_zero (Nat.ne_zero_of_lt hlimit)
  cases fields with
  | nil => exact ⟨_, rfl, rfl⟩
  | cons field fields =>
    obtain ⟨name, value⟩ := field
    rw [List.forall_mem_cons] at hread
    refine ⟨_, print_record_cons name value fields rest, ?_⟩
    have hvalue := hread.1 (printFields fields ++ rest) (endsNumber_printFields fields rest)
    rw [readFields, nextField_first]
    simp only
    rw [readName_escaped]
    simp only
    rw [hvalue]
    simp only
    rw [readFields_print hread.2 (by simpa using hlimit)]
    rfl

theorem length_array (items : List Json) :
    items.length < (print (.array items)).length ∧
      ∀ j ∈ items, (print j).length ≤ (print (.array items)).length := by
  cases items with
  | nil => simp [print]
  | cons j items =>
    have hall := length_lt_printItems items
    simp only [print, List.length_append, List.length_cons]
    refine ⟨by omega, ?_⟩
    · intro i hi
      rcases List.mem_cons.mp hi with rfl | hi
      · omega
      · have := length_le_printItems hi
        omega

theorem length_record (fields : Fields) :
    fields.length < (print (.record fields)).length ∧
      ∀ field ∈ fields, (print field.2).length ≤ (print (.record fields)).length := by
  cases fields with
  | nil => simp [print]
  | cons field fields =>
    have hall := length_lt_printFields fields
    simp only [print, List.length_append, List.length_cons]
    refine ⟨by omega, ?_⟩
    intro f hf
    rcases List.mem_cons.mp hf with rfl | hf
    · omega
    · have := length_le_printFields hf
      omega

/-- What was written of a value is read as that value. -/
theorem reads_print (hj : Portable depth j) (hlimit : (print j).length ≤ limit) :
    Reads (readValue limit depth) j := by
  -- the limit stays that of the whole text, while each level takes one from the depth
  induction hj with
  | @null depth =>
    intro rest _
    exact readValue_scalar (b := 0x6E) (by decide) (by decide) (by decide) limit depth _
  | @bool depth b =>
    intro rest _
    cases b with
    | false => exact readValue_scalar (b := 0x66) (by decide) (by decide) (by decide) limit depth _
    | true => exact readValue_scalar (b := 0x74) (by decide) (by decide) (by decide) limit depth _
  | @int depth i low high =>
    intro rest hrest
    obtain ⟨b, more, hprint, hb⟩ := printInt_head i
    have hread := readNumber_printInt low high hrest
    rw [hprint, List.cons_append] at hread
    rw [print, printNumber, hprint, List.cons_append,
      readValue_scalar (begins_number hb) (ne_of_number hb (by decide))
        (ne_of_number hb (by decide)),
      readScalar_number hb, hread]
    rfl
  | @string depth s =>
    intro rest _
    rw [print, printString_eq, List.cons_append, List.append_assoc, List.singleton_append,
      readValue_scalar (by decide) (by decide) (by decide), readScalar, if_pos rfl,
      readString_escaped]
    rfl
  | @array depth items each ih =>
    intro rest _
    obtain ⟨hcount, hlength⟩ := length_array items
    have hread : ∀ j ∈ items, Reads (readValue limit depth) j := fun j hj =>
      ih j hj (Nat.le_trans (hlength j hj) hlimit)
    obtain ⟨text, htext, hitems⟩ :=
      readItems_array each hread (Nat.lt_of_lt_of_le hcount hlimit) rest
    rw [htext, readValue_list, hitems]
    rfl
  | @record depth fields ascending each ih =>
    intro rest _
    obtain ⟨hcount, hlength⟩ := length_record fields
    have hread : ∀ field ∈ fields, Reads (readValue limit depth) field.2 := fun field hf =>
      ih field hf (Nat.le_trans (hlength field hf) hlimit)
    obtain ⟨text, htext, hfields⟩ :=
      readFields_record hread (Nat.lt_of_lt_of_le hcount hlimit) rest
    rw [htext, readValue_object, hfields]
    simp [Except.map, object_ascending ascending]

theorem nat_portable {n : Nat} (hn : n < 2 ^ 64) : Portable depth (.nat n) :=
  .int (by omega) (by omega)

theorem toWord_nat (n : Nat) : Value.toWord (.nat n) = .ok n := by
  have hpositive : ¬ (n : Int) < 0 := by omega
  rw [nat, int, Value.toWord, wordOf, if_neg hpositive, Int.toNat_natCast]

theorem readTypedWord_print {n : Nat} (hn : n < 2 ^ 64) {rest : Bytes} (hrest : EndsNumber rest) :
    readTypedWord (print (.nat n) ++ rest) = .ok (n, rest) := by
  obtain ⟨b, more, hprint, hb⟩ := printInt_head n
  have hread := readNumber_printInt (i := n) (by omega) (by omega) hrest
  rw [hprint, List.cons_append] at hread
  have hword := toWord_nat n
  rw [nat, int, Value.toWord] at hword
  rw [nat, int, print, printNumber, hprint, List.cons_append, readTypedWord,
    skipBlanks_begins (begins_number hb).1]
  simp only [hb, if_true, hread, hword]
  rfl

theorem readTypedString_print (shape : Shape) (s : String) (rest : Bytes) :
    readTypedString shape (print (.string s) ++ rest) = .ok (s, rest) := by
  rw [print, printString_eq, List.cons_append, List.append_assoc, List.singleton_append,
    readTypedString, skipBlanks_begins (by decide)]
  simp only [if_true]
  exact readString_escaped s rest

/-- The values of an object's fields are read within the limit that its text gives. -/
theorem reads_fields (hfields : ∀ f ∈ fields, f.2.Portable depth) :
    ∀ f ∈ fields, Reads (readValue (itemLimit (print (.record fields))) depth) f.2 := by
  intro f hf
  have hlength := (length_record fields).2 f hf
  exact reads_print (hfields f hf) (Nat.le_succ_of_le hlength)

/-- The fields of an object are read as they stand. -/
theorem readOutline_record (hfields : ∀ f ∈ fields, f.2.Portable (maxDepth - 1)) :
    readOutline (print (.record fields)) = .ok (.object fields, []) := by
  have hlimit : fields.length < itemLimit (print (.record fields)) :=
    Nat.lt_succ_of_lt (length_record fields).1
  obtain ⟨text, htext, hall⟩ := readFields_record (reads_fields hfields) hlimit []
  have hbracket : Byte.leftBrace ≠ Byte.leftBracket := by decide
  have hskip : skipBlanks (print (.record fields)) = Byte.leftBrace :: text := by
    rw [← List.append_nil (print _), htext, skipBlanks_begins (by decide)]
  simp only [readOutline, hskip, hbracket, if_true, if_false, hall]
  rfl

theorem field_legible (name : String) {value : Json} (hvalue : (print value).Legible) :
    (printString name ++ Byte.colon :: print value).Legible := by
  have hcolon : Bytes.Legible [Byte.colon] := Bytes.legible_of_all rfl
  exact (printString_legible name).append (hcolon.append hvalue)

/-- What is written of fields keeps its closing brace apart from the rest. -/
theorem printFields_legible (heach : ∀ field ∈ fields, (print field.2).Legible) :
    ∃ middle : Bytes, middle.Legible ∧ printFields fields = middle ++ [Byte.rightBrace] := by
  induction fields with
  | nil => exact ⟨[], Bytes.legible_nil, rfl⟩
  | cons field fields ih =>
    obtain ⟨name, value⟩ := field
    rw [List.forall_mem_cons] at heach
    obtain ⟨middle, hmiddle, hfields⟩ := ih heach.2
    have hcomma : Bytes.Legible [Byte.comma] := Bytes.legible_of_all rfl
    refine ⟨_, hcomma.append ((field_legible name heach.1).append hmiddle), ?_⟩
    simp [printFields, hfields]

/-- An object is written between two braces. -/
theorem record_between (heach : ∀ field ∈ fields, (print field.2).Legible) :
    ∃ middle : Bytes, middle.Legible ∧
      print (.record fields) = Byte.leftBrace :: (middle ++ [Byte.rightBrace]) := by
  cases fields with
  | nil => exact ⟨[], Bytes.legible_nil, rfl⟩
  | cons field fields =>
    obtain ⟨name, value⟩ := field
    rw [List.forall_mem_cons] at heach
    obtain ⟨middle, hmiddle, hfields⟩ := printFields_legible heach.2
    refine ⟨_, (field_legible name heach.1).append hmiddle, ?_⟩
    simp [print, hfields]

theorem record_legible (heach : ∀ field ∈ fields, (print field.2).Legible) :
    (print (.record fields)).Legible := by
  obtain ⟨middle, hmiddle, hprint⟩ := record_between heach
  have hopen : Bytes.Legible [Byte.leftBrace] := Bytes.legible_of_all rfl
  have hclose : Bytes.Legible [Byte.rightBrace] := Bytes.legible_of_all rfl
  rw [hprint]
  exact hopen.append (hmiddle.append hclose)

theorem printItems_legible (heach : ∀ item ∈ items, (print item).Legible) :
    (printItems items).Legible := by
  induction items with
  | nil => exact Bytes.legible_of_all rfl
  | cons item items ih =>
    rw [List.forall_mem_cons] at heach
    have hcomma : Bytes.Legible [Byte.comma] := Bytes.legible_of_all rfl
    exact hcomma.append (heach.1.append (ih heach.2))

/-- What is written of a value is text on one line. -/
theorem print_legible (hj : Portable depth j) : (print j).Legible := by
  induction hj with
  | null => exact Bytes.legible_of_all rfl
  | @bool _ b =>
    cases b with
    | false => exact Bytes.legible_of_all rfl
    | true => exact Bytes.legible_of_all rfl
  | @int _ i => exact printInt_legible i
  | @string _ s => exact printString_legible s
  | @array _ items each ih =>
    cases items with
    | nil => exact Bytes.legible_of_all rfl
    | cons item items =>
      rw [List.forall_mem_cons] at ih
      have hopen : Bytes.Legible [Byte.leftBracket] := Bytes.legible_of_all rfl
      exact hopen.append (ih.1.append (printItems_legible ih.2))
  | record ascending each ih => exact record_legible ih

end DebugAdapter.Json
