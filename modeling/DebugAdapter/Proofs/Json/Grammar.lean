import DebugAdapter.Proofs.Json.NumberText
import DebugAdapter.Proofs.Json.RoundTrip

namespace DebugAdapter.Json

def Blank (bytes : Bytes) : Prop :=
  ∀ b ∈ bytes, b ∈ [0x20, 0x09, 0x0A, 0x0D]

/-- What may stand behind a backslash, and what the two stand for. -/
def shortEscapes : List (UInt8 × UInt8) :=
  [(0x22, 0x22), (0x5C, 0x5C), (0x2F, 0x2F), (0x62, 0x08), (0x66, 0x0C), (0x6E, 0x0A), (0x72, 0x0D),
    (0x74, 0x09)]

/-- What stands between the quotes of a string, and the text that it spells. A surrogate spells
nothing without the other one of its pair. -/
inductive Spells : Bytes → Bytes → Prop where
  | nil : Spells [] []
  | plain {b : UInt8} {spelling text : Bytes} (quote : b ≠ Byte.quote)
      (escape : b ≠ Byte.backslash) (control : 0x20 ≤ b) (more : Spells spelling text) :
    Spells (b :: spelling) (b :: text)
  | short {e c : UInt8} {spelling text : Bytes} (escape : (e, c) ∈ shortEscapes)
      (more : Spells spelling text) : Spells (Byte.backslash :: e :: spelling) (c :: text)
  | unit {h₁ h₂ h₃ h₄ : UInt8} {unit : Nat} {spelling text : Bytes}
      (hex : codeUnit? h₁ h₂ h₃ h₄ = some unit) (scalar : unit < 0xD800 ∨ 0xDFFF < unit)
      (more : Spells spelling text) :
    Spells (Byte.backslash :: Byte.unicodeMark :: h₁ :: h₂ :: h₃ :: h₄ :: spelling)
      (String.utf8EncodeChar (Char.ofNat unit) ++ text)
  | pair {h₁ h₂ h₃ h₄ l₁ l₂ l₃ l₄ : UInt8} {high low : Nat} {spelling text : Bytes}
      (hexHigh : codeUnit? h₁ h₂ h₃ h₄ = some high) (inHigh : 0xD800 ≤ high ∧ high ≤ 0xDBFF)
      (hexLow : codeUnit? l₁ l₂ l₃ l₄ = some low) (inLow : 0xDC00 ≤ low ∧ low ≤ 0xDFFF)
      (more : Spells spelling text) :
    Spells (Byte.backslash :: Byte.unicodeMark :: h₁ :: h₂ :: h₃ :: h₄ ::
        Byte.backslash :: Byte.unicodeMark :: l₁ :: l₂ :: l₃ :: l₄ :: spelling)
      (String.utf8EncodeChar (Char.ofNat (0x10000 + (high - 0xD800) * 0x400 + (low - 0xDC00))) ++
        text)

structure Item where
  before : Bytes := []
  core : Bytes
  after : Bytes := []
  blankBefore : Blank before
  blankAfter : Blank after

def Item.bytes (i : Item) : Bytes :=
  i.before ++ (i.core ++ i.after)

structure Member where
  before : Bytes := []
  spelling : Bytes
  name : String
  middle : Bytes := []
  value : Item
  blankBefore : Blank before
  blankMiddle : Blank middle
  spelled : Spells spelling (.ofString name)

def Member.bytes (m : Member) : Bytes :=
  m.before ++ Byte.quote :: (m.spelling ++ Byte.quote :: (m.middle ++ Byte.colon :: m.value.bytes))

def separator (first : Bool) : Bytes :=
  if first then [] else [Byte.comma]

def listed (first : Bool) : List Bytes → Bytes
  | [] => []
  | text :: texts => separator first ++ (text ++ listed false texts)

/-- Values of at most `depth` levels of lists and objects, with numbers that fit. -/
inductive ValueText (fits : Bytes → Prop) : Nat → Bytes → Prop where
  | null {depth : Nat} : ValueText fits depth Word.null
  | yes {depth : Nat} : ValueText fits depth Word.yes
  | no {depth : Nat} : ValueText fits depth Word.no
  | number {depth : Nat} {text : Bytes} (written : NumberText text) (fitting : fits text) :
    ValueText fits depth text
  | string {depth : Nat} {spelling : Bytes} {s : String} (spelled : Spells spelling (.ofString s)) :
    ValueText fits depth (Byte.quote :: (spelling ++ [Byte.quote]))
  | list {depth : Nat} {blanks : Bytes} {items : List Item} (blank : Blank blanks)
      (each : ∀ i ∈ items, ValueText fits depth i.core) :
    ValueText fits (depth + 1)
      (Byte.leftBracket :: (blanks ++ (listed true (items.map Item.bytes) ++ [Byte.rightBracket])))
  | object {depth : Nat} {blanks : Bytes} {members : List Member} (blank : Blank blanks)
      (each : ∀ m ∈ members, ValueText fits depth m.value.core) :
    ValueText fits (depth + 1)
      (Byte.leftBrace :: (blanks ++ (listed true (members.map Member.bytes) ++ [Byte.rightBrace])))

/-- A number that can be told from infinity. -/
def InRange (text : Bytes) : Prop :=
  readNumber text ≠ .error .numberOutOfRange

section Blanks

variable {lead rest : Bytes}

/-- A blank is passed over, and no number goes on with it. -/
theorem blank_byte {b : UInt8} (hl : Blank lead) (hb : b ∈ lead) :
    Byte.isBlank b ∧ Byte.isDigit b = false ∧ b ≠ Byte.point ∧ Byte.isExponentMark b = false := by
  have hblank := hl b hb
  simp only [List.mem_cons, List.not_mem_nil, or_false] at hblank
  rcases hblank with rfl | rfl | rfl | rfl <;> decide

theorem skipBlanks_blank (hl : Blank lead) (rest : Bytes) :
    skipBlanks (lead ++ rest) = skipBlanks rest :=
  List.dropWhile_append_of_pos fun _ hb => (blank_byte hl hb).1

theorem nextItem_blank (hl : Blank lead) (first : Bool) (rest : Bytes) :
    nextItem first (lead ++ rest) = nextItem first rest := by
  rw [nextItem, skipBlanks_blank hl, ← nextItem]

theorem nextField_blank (hl : Blank lead) (first : Bool) (rest : Bytes) :
    nextField first (lead ++ rest) = nextField first rest := by
  rw [nextField, skipBlanks_blank hl, ← nextField]

theorem skipColon_blank (hl : Blank lead) (rest : Bytes) :
    skipColon (lead ++ rest) = skipColon rest := by
  rw [skipColon, skipBlanks_blank hl, ← skipColon]

theorem readValue_blank (hl : Blank lead) (limit depth : Nat) (rest : Bytes) :
    readValue limit depth (lead ++ rest) = readValue limit depth rest := by
  rw [readValue, skipBlanks_blank hl, ← readValue]

theorem readItems_blank (hl : Blank lead) (item : Bytes → Read Json) (limit : Nat) (first : Bool)
    (done : List Json) (rest : Bytes) :
    readItems item limit first done (lead ++ rest) = readItems item limit first done rest := by
  cases limit with
  | zero => rfl
  | succ limit => rw [readItems, nextItem_blank hl, ← readItems]

theorem readFields_blank (hl : Blank lead) (item : Bytes → Read Json) (limit : Nat) (first : Bool)
    (done : Fields) (rest : Bytes) :
    readFields item limit first done (lead ++ rest) = readFields item limit first done rest := by
  cases limit with
  | zero => rfl
  | succ limit => rw [readFields, nextField_blank hl, ← readFields]

/-- A number does not go on with a blank. -/
theorem endsNumber_blank (hl : Blank lead) (hrest : EndsNumber rest) : EndsNumber (lead ++ rest) := by
  cases lead with
  | nil => exact hrest
  | cons b lead =>
    rintro _ ⟨⟩
    exact (blank_byte hl List.mem_cons_self).2

end Blanks

section Strings

variable {spelling text : Bytes}

/-- Two escapes that are a surrogate pair are read as the one character they stand for. -/
theorem readStringFrom_pair {h₁ h₂ h₃ h₄ l₁ l₂ l₃ l₄ : UInt8} {high low : Nat}
    (hhigh : codeUnit? h₁ h₂ h₃ h₄ = some high) (inHigh : 0xD800 ≤ high ∧ high ≤ 0xDBFF)
    (hlow : codeUnit? l₁ l₂ l₃ l₄ = some low) (inLow : 0xDC00 ≤ low ∧ low ≤ 0xDFFF)
    (done rest : Bytes) :
    readStringFrom done (Byte.backslash :: Byte.unicodeMark :: h₁ :: h₂ :: h₃ :: h₄ ::
        Byte.backslash :: Byte.unicodeMark :: l₁ :: l₂ :: l₃ :: l₄ :: rest) =
      readStringFrom (pushCodePoint (0x10000 + (high - 0xD800) * 0x400 + (low - 0xDC00)) done)
        rest := by
  have hnot : ¬ (0xDC00 ≤ high ∧ high ≤ 0xDFFF) := by omega
  conv => lhs; rw [readStringFrom.eq_def]
  simp only [if_true, and_self, hhigh, hlow]
  rw [if_neg (by decide), if_neg hnot, if_pos inHigh, if_pos inLow]

theorem escaped_short {e c : UInt8} (he : (e, c) ∈ shortEscapes) : escaped? e = some c := by
  simp only [shortEscapes, List.mem_cons, List.not_mem_nil, or_false, Prod.mk.injEq] at he
  rcases he with ⟨rfl, rfl⟩ | ⟨rfl, rfl⟩ | ⟨rfl, rfl⟩ | ⟨rfl, rfl⟩ | ⟨rfl, rfl⟩ | ⟨rfl, rfl⟩ |
    ⟨rfl, rfl⟩ | ⟨rfl, rfl⟩ <;> rfl

/-- A string is read from any of its spellings. -/
theorem readStringFrom_spells (hs : Spells spelling text) (done rest : Bytes) :
    readStringFrom done (spelling ++ Byte.quote :: rest) = .ok (done.reverse ++ text, rest) := by
  induction hs generalizing done with
  | nil => simpa using readStringFrom_quote done rest
  | plain quote escape control _ ih =>
    rw [List.cons_append, readStringFrom_plain quote escape (UInt8.not_lt.mpr control), ih]
    simp
  | short escape _ ih =>
    rw [List.cons_append, List.cons_append, readStringFrom_short (escaped_short escape), ih]
    simp
  | unit hex scalar _ ih =>
    simp only [List.cons_append]
    rw [readStringFrom_unicode hex scalar, ih, pushCodePoint]
    simp
  | pair hexHigh inHigh hexLow inLow _ ih =>
    simp only [List.cons_append]
    rw [readStringFrom_pair hexHigh inHigh hexLow inLow, ih, pushCodePoint]
    simp

/-- Bytes that are no quote, no backslash and no control characters spell themselves. -/
theorem spells_plain
    (htext : text.all fun b => b != Byte.quote && b != Byte.backslash && 0x20 ≤ b) :
    Spells text text := by
  induction text with
  | nil => exact .nil
  | cons b text ih =>
    simp only [List.all_cons, Bool.and_eq_true, bne_iff_ne, decide_eq_true_eq] at htext
    obtain ⟨⟨⟨hquote, hescape⟩, hcontrol⟩, htext⟩ := htext
    exact .plain hquote hescape hcontrol (ih (by simpa using htext))

/-- A string is read as what it spells. -/
theorem readString_spells {s : String} (hs : Spells spelling (.ofString s)) (rest : Bytes) :
    readString (spelling ++ Byte.quote :: rest) = .ok (s, rest) := by
  rw [readString, readStringFrom_spells hs]
  simp [Bytes.toString?_ofString]

end Strings

section Values

variable {fits : Bytes → Prop} {good : Prop} {depth limit : Nat} {text rest : Bytes}

/-- A value is found the same wherever it stands, as long as lists and objects may be as long as it
is. -/
def FindsValue (depth : Nat) (core : Bytes) (found : Except ReadError Json) : Prop :=
  ∀ limit, core.length < limit → Finds (readValue limit depth) core found

/-- Whether a value is accepted does not depend on where it stands, and if it is `good` it is. -/
def Settled (good : Prop) (depth : Nat) (core : Bytes) : Prop :=
  ∃ found, FindsValue depth core found ∧ (good → ∃ j, found = .ok j)

theorem value_begins (hv : ValueText fits depth text) :
    ∃ b more, text = b :: more ∧ Begins b := by
  cases hv with
  | null => exact ⟨_, _, rfl, by decide, by decide⟩
  | yes => exact ⟨_, _, rfl, by decide, by decide⟩
  | no => exact ⟨_, _, rfl, by decide, by decide⟩
  | number written _ =>
    obtain ⟨b, more, rfl, hb⟩ := numberText_head written
    exact ⟨b, more, rfl, begins_number hb⟩
  | string _ => exact ⟨_, _, rfl, by decide, by decide⟩
  | list _ _ => exact ⟨_, _, rfl, by decide, by decide⟩
  | object _ _ => exact ⟨_, _, rfl, by decide, by decide⟩

/-- A word, or a string: it is read at once, wherever it stands. -/
theorem finds_scalar {b : UInt8} {more : Bytes} {j : Json} (hb : Begins b)
    (hlist : b ≠ Byte.leftBracket) (hobject : b ≠ Byte.leftBrace)
    (hread : ∀ rest, readScalar (b :: (more ++ rest)) = .ok (j, rest)) :
    FindsValue depth (b :: more) (.ok j) := by
  intro limit _ rest _
  rw [List.cons_append, readValue_scalar hb hlist hobject, hread]
  rfl

theorem finds_null : FindsValue depth Word.null (.ok .null) :=
  finds_scalar (b := 0x6E) (by decide) (by decide) (by decide) fun _ => rfl

theorem finds_yes : FindsValue depth Word.yes (.ok (.bool true)) :=
  finds_scalar (b := 0x74) (by decide) (by decide) (by decide) fun _ => rfl

theorem finds_no : FindsValue depth Word.no (.ok (.bool false)) :=
  finds_scalar (b := 0x66) (by decide) (by decide) (by decide) fun _ => rfl

theorem finds_string {spelling : Bytes} {s : String} (hs : Spells spelling (.ofString s)) :
    FindsValue depth (Byte.quote :: (spelling ++ [Byte.quote])) (.ok (.string s)) := by
  refine finds_scalar (by decide) (by decide) (by decide) fun rest => ?_
  rw [List.append_assoc, List.singleton_append, readScalar, if_pos rfl, readString_spells hs]
  rfl

theorem FindsValue.settled {core : Bytes} {j : Json} (h : FindsValue depth core (.ok j)) :
    Settled good depth core :=
  ⟨.ok j, h, fun _ => ⟨j, rfl⟩⟩

/-- A value is one value only. -/
theorem FindsValue.unique {core : Bytes} {first second : Json}
    (h : FindsValue depth core (.ok first)) (h' : FindsValue depth core (.ok second)) :
    first = second := by
  have hend : EndsNumber [] := by rintro _ ⟨⟩
  have hfirst := h _ (Nat.lt_succ_self core.length) [] hend
  cases hfirst.symm.trans (h' _ (Nat.lt_succ_self core.length) [] hend)
  rfl

/-- A number text is read as one number, and refused at most for being out of range. -/
theorem settled_number (ht : NumberText text) (hgood : good → InRange text) :
    Settled good depth text := by
  obtain ⟨found, hfinds, herror⟩ := readNumber_finds ht
  obtain ⟨b, more, rfl, hb⟩ := numberText_head ht
  refine ⟨found.map .number, fun limit _ rest hrest => ?_, fun h => ?_⟩
  · have hread := hfinds rest hrest
    rw [List.cons_append] at hread
    rw [List.cons_append, readValue_scalar (begins_number hb) (ne_of_number hb (by decide))
      (ne_of_number hb (by decide)), readScalar_number hb, hread]
    cases found <;> rfl
  · cases found with
    | ok n => exact ⟨_, rfl⟩
    | error e =>
      obtain rfl := herror e rfl
      have hread := hfinds [] (by rintro _ ⟨⟩)
      rw [List.append_nil] at hread
      exact absurd hread (hgood h)

theorem nextItem_listed {b : UInt8} (hb : Begins b) {lead : Bytes} (hl : Blank lead) (first : Bool)
    (rest : Bytes) :
    nextItem first (separator first ++ (lead ++ b :: rest)) = .ok (.more (b :: rest)) := by
  cases first with
  | true =>
    rw [separator, if_pos rfl, List.nil_append, nextItem_blank hl]
    exact nextItem_first hb rest
  | false =>
    have hcomma : Byte.comma ≠ Byte.rightBracket := by decide
    rw [separator, if_neg (by decide), List.singleton_append, nextItem, skipBlanks_begins (by decide)]
    simp only [hcomma, skipBlanks_blank hl, skipBlanks_begins hb.1, hb.2, if_true, if_false,
      Bool.false_eq_true]

/-- Where an item stands, what it is read as goes before the items that follow. -/
theorem readItems_item {i : Item} {found : Except ReadError Json} {read : Bytes → Read Json}
    (hbegins : ∃ b more, i.core = b :: more ∧ Begins b) (hfinds : Finds read i.core found)
    (hrest : EndsNumber rest) (limit : Nat) (first : Bool) (done : List Json) :
    readItems read (limit + 1) first done (separator first ++ (i.bytes ++ rest)) =
      match found with
      | .error e => .error e
      | .ok j => readItems read limit false (j :: done) rest := by
  obtain ⟨b, more, hcore, hb⟩ := hbegins
  have hnext : nextItem first (separator first ++ (i.bytes ++ rest)) =
      .ok (.more (i.core ++ (i.after ++ rest))) := by
    rw [Item.bytes, hcore]
    simpa using nextItem_listed hb i.blankBefore first (more ++ (i.after ++ rest))
  rw [readItems, hnext]
  simp only [hfinds _ (endsNumber_blank i.blankAfter hrest)]
  cases found with
  | error e => rfl
  | ok j => exact readItems_blank i.blankAfter read limit false (j :: done) rest

/-- A comma or a closing bracket or brace is no part of a number. -/
theorem endsNumber_listed {close : UInt8} (hc : close = Byte.rightBracket ∨ close = Byte.rightBrace)
    (texts : List Bytes) (rest : Bytes) : EndsNumber (listed false texts ++ close :: rest) := by
  cases texts with
  | nil =>
    rintro _ ⟨⟩
    rcases hc with rfl | rfl <;> decide
  | cons text texts =>
    rintro _ ⟨⟩
    decide

/-- The items of a list are settled if each of them is. -/
theorem readItems_settled {items : List Item}
    (hbegins : ∀ i ∈ items, ∃ b more, i.core = b :: more ∧ Begins b)
    (heach : ∀ i ∈ items, Settled good depth i.core) (first : Bool) :
    ∃ found : Except ReadError (List Json), (good → ∃ js, found = .ok js) ∧
      ∀ most, (∀ i ∈ items, i.core.length < most) → ∀ limit, items.length < limit →
        ∀ done rest, readItems (readValue most depth) limit first done
          (listed first (items.map Item.bytes) ++ Byte.rightBracket :: rest) =
            found.map fun js => (done.reverse ++ js, rest) := by
  induction items generalizing first with
  | nil =>
    refine ⟨.ok [], fun _ => ⟨[], rfl⟩, fun most _ limit hlimit done rest => ?_⟩
    obtain ⟨limit, rfl⟩ := Nat.exists_eq_add_one_of_ne_zero (Nat.ne_zero_of_lt hlimit)
    have hnext : nextItem first (Byte.rightBracket :: rest) = .ok (.closed rest) := by
      rw [nextItem, skipBlanks_begins (by decide)]
      simp only [if_true]
    rw [List.map_nil, listed, List.nil_append, readItems, hnext]
    simp [Except.map]
  | cons i items ih =>
    rw [List.forall_mem_cons] at hbegins heach
    obtain ⟨found, hfinds, hgood⟩ := heach.1
    obtain ⟨more, hmoreGood, hmore⟩ := ih hbegins.2 heach.2 false
    refine ⟨found.bind fun j => more.map (j :: ·), fun h => ?_, ?_⟩
    · obtain ⟨j, rfl⟩ := hgood h
      obtain ⟨js, rfl⟩ := hmoreGood h
      exact ⟨j :: js, rfl⟩
    · intro most hmost limit hlimit done rest
      rw [List.forall_mem_cons] at hmost
      obtain ⟨limit, rfl⟩ := Nat.exists_eq_add_one_of_ne_zero (Nat.ne_zero_of_lt hlimit)
      have hrest := endsNumber_listed (Or.inl rfl) (items.map Item.bytes) rest
      rw [List.map_cons, listed, List.append_assoc, List.append_assoc,
        readItems_item hbegins.1 (hfinds most hmost.1) hrest]
      cases found with
      | error e => rfl
      | ok j =>
        simp only
        rw [hmore most hmost.2 limit (by simpa using hlimit)]
        cases more with
        | error e => rfl
        | ok js => simp [Except.map, Except.bind]

theorem nextField_listed (m : Member) (first : Bool) (rest : Bytes) :
    nextField first (separator first ++ (m.bytes ++ rest)) = .ok (.more (m.spelling ++
      Byte.quote :: (m.middle ++ Byte.colon :: (m.value.bytes ++ rest)))) := by
  have hbytes : m.bytes ++ rest = m.before ++ Byte.quote :: (m.spelling ++
      Byte.quote :: (m.middle ++ Byte.colon :: (m.value.bytes ++ rest))) := by
    simp [Member.bytes]
  rw [hbytes]
  cases first with
  | true =>
    rw [separator, if_pos rfl, List.nil_append, nextField_blank m.blankBefore]
    exact nextField_first _
  | false =>
    have hcomma : Byte.comma ≠ Byte.rightBrace := by decide
    rw [separator, if_neg (by decide), List.singleton_append, nextField,
      skipBlanks_begins (by decide)]
    simp only [hcomma, skipBlanks_blank m.blankBefore, skipBlanks_begins (b := Byte.quote) rfl,
      if_true, if_false, Bool.false_eq_true]

theorem nextField_closed (first : Bool) (rest : Bytes) :
    nextField first (Byte.rightBrace :: rest) = .ok (.closed rest) := by
  rw [nextField, skipBlanks_begins (by decide)]
  simp only [if_true]

theorem skipColon_middle (m : Member) (rest : Bytes) :
    skipColon (m.middle ++ Byte.colon :: rest) = .ok rest := by
  rw [skipColon_blank m.blankMiddle, skipColon_colon]

/-- A field's value is read behind its blanks. -/
theorem readValue_member {m : Member} {found : Except ReadError Json}
    (hfinds : Finds (readValue limit depth) m.value.core found) (hrest : EndsNumber rest) :
    readValue limit depth (m.value.bytes ++ rest) = found.map (·, m.value.after ++ rest) := by
  rw [Item.bytes, List.append_assoc, List.append_assoc, readValue_blank m.value.blankBefore,
    hfinds _ (endsNumber_blank m.value.blankAfter hrest)]

/-- Where a field stands, its name and its value go before the fields that follow. -/
theorem readFields_member {m : Member} {found : Except ReadError Json} {most : Nat}
    (hfinds : Finds (readValue most depth) m.value.core found) (hrest : EndsNumber rest)
    (limit : Nat) (first : Bool) (done : Fields) :
    readFields (readValue most depth) (limit + 1) first done
        (separator first ++ (m.bytes ++ rest)) =
      match found with
      | .error e => .error e
      | .ok j => readFields (readValue most depth) limit false ((m.name, j) :: done) rest := by
  rw [readFields, nextField_listed]
  simp only [readName, readString_spells m.spelled, skipColon_middle, Except.map,
    readValue_member hfinds hrest]
  cases found with
  | error e => rfl
  | ok j => exact readFields_blank m.value.blankAfter _ limit false _ rest

/-- The fields of an object are settled if the value of each is. -/
theorem readFields_settled {members : List Member}
    (heach : ∀ m ∈ members, Settled good depth m.value.core) (first : Bool) :
    ∃ found : Except ReadError Fields, (good → ∃ fs, found = .ok fs) ∧
      ∀ most, (∀ m ∈ members, m.value.core.length < most) → ∀ limit, members.length < limit →
        ∀ done rest, readFields (readValue most depth) limit first done
          (listed first (members.map Member.bytes) ++ Byte.rightBrace :: rest) =
            found.map fun fs => (done.reverse ++ fs, rest) := by
  induction members generalizing first with
  | nil =>
    refine ⟨.ok [], fun _ => ⟨[], rfl⟩, fun most _ limit hlimit done rest => ?_⟩
    obtain ⟨limit, rfl⟩ := Nat.exists_eq_add_one_of_ne_zero (Nat.ne_zero_of_lt hlimit)
    rw [List.map_nil, listed, List.nil_append, readFields, nextField_closed]
    simp [Except.map]
  | cons m members ih =>
    rw [List.forall_mem_cons] at heach
    obtain ⟨found, hfinds, hgood⟩ := heach.1
    obtain ⟨more, hmoreGood, hmore⟩ := ih heach.2 false
    refine ⟨found.bind fun j => more.map ((m.name, j) :: ·), fun h => ?_, ?_⟩
    · obtain ⟨j, rfl⟩ := hgood h
      obtain ⟨fs, rfl⟩ := hmoreGood h
      exact ⟨(m.name, j) :: fs, rfl⟩
    · intro most hmost limit hlimit done rest
      rw [List.forall_mem_cons] at hmost
      obtain ⟨limit, rfl⟩ := Nat.exists_eq_add_one_of_ne_zero (Nat.ne_zero_of_lt hlimit)
      have hrest := endsNumber_listed (Or.inr rfl) (members.map Member.bytes) rest
      rw [List.map_cons, listed, List.append_assoc, List.append_assoc,
        readFields_member (hfinds most hmost.1) hrest]
      cases found with
      | error e => rfl
      | ok j =>
        simp only
        rw [hmore most hmost.2 limit (by simpa using hlimit)]
        cases more with
        | error e => rfl
        | ok fs => simp [Except.map, Except.bind]

/-- A text in a list is no longer than the list, and there are no more of them than it has bytes. -/
theorem length_listed (first : Bool) (texts : List Bytes) (hsome : ∀ t ∈ texts, t ≠ []) :
    texts.length ≤ (listed first texts).length ∧ ∀ t ∈ texts, t.length ≤ (listed first texts).length := by
  induction texts generalizing first with
  | nil => exact ⟨Nat.le_refl _, by simp⟩
  | cons text texts ih =>
    rw [List.forall_mem_cons] at hsome
    obtain ⟨hcount, hlength⟩ := ih false hsome.2
    have hpos := List.length_pos_iff.mpr hsome.1
    rw [List.forall_mem_cons, listed, List.length_append, List.length_append, List.length_cons]
    refine ⟨by omega, by omega, fun t ht => ?_⟩
    have := hlength t ht
    omega

theorem Item.length_core_le (i : Item) : i.core.length ≤ i.bytes.length := by
  simp only [Item.bytes, List.length_append]
  omega

theorem Member.length_core_lt (m : Member) : m.value.core.length < m.bytes.length := by
  have hvalue := m.value.length_core_le
  simp only [Member.bytes, List.length_append, List.length_cons]
  omega

/-- There are fewer fields than bytes, and none of their values is longer than all of them. -/
theorem length_members (members : List Member) :
    members.length ≤ (listed true (members.map Member.bytes)).length ∧
      ∀ m ∈ members, m.value.core.length < (listed true (members.map Member.bytes)).length := by
  have hsome : ∀ t ∈ members.map Member.bytes, t ≠ [] := by
    intro t ht
    obtain ⟨m, _, rfl⟩ := List.mem_map.mp ht
    simp [Member.bytes]
  obtain ⟨hcount, hlength⟩ := length_listed true (members.map Member.bytes) hsome
  rw [List.length_map] at hcount
  exact ⟨hcount, fun m hm => Nat.lt_of_lt_of_le m.length_core_lt (hlength _ (List.mem_map_of_mem hm))⟩

/-- A list is read if its items are, whatever blanks there are between them. -/
theorem settled_list {blanks : Bytes} {items : List Item} (hblank : Blank blanks)
    (hbegins : ∀ i ∈ items, ∃ b more, i.core = b :: more ∧ Begins b)
    (heach : ∀ i ∈ items, Settled good depth i.core) :
    Settled good (depth + 1)
      (Byte.leftBracket :: (blanks ++ (listed true (items.map Item.bytes) ++ [Byte.rightBracket]))) := by
  obtain ⟨found, hgood, hitems⟩ := readItems_settled hbegins heach true
  have hsome : ∀ t ∈ items.map Item.bytes, t ≠ [] := by
    intro t ht
    obtain ⟨i, hi, rfl⟩ := List.mem_map.mp ht
    obtain ⟨b, more, hcore, _⟩ := hbegins i hi
    simp [Item.bytes, hcore]
  obtain ⟨hcount, hlength⟩ := length_listed true (items.map Item.bytes) hsome
  refine ⟨found.map .array, fun limit hlimit rest _ => ?_, fun h => ?_⟩
  · simp only [List.length_cons, List.length_append] at hlimit
    rw [List.length_map] at hcount
    have hmost : ∀ i ∈ items, i.core.length < limit := by
      intro i hi
      have hle := hlength i.bytes (List.mem_map_of_mem hi)
      have hcore := i.length_core_le
      omega
    have hread := hitems limit hmost limit (by omega) [] rest
    rw [List.cons_append, List.append_assoc, List.append_assoc, List.singleton_append,
      readValue_list, readItems_blank hblank, hread]
    cases found <;> rfl
  · obtain ⟨js, rfl⟩ := hgood h
    exact ⟨_, rfl⟩

theorem settled_object {blanks : Bytes} {members : List Member} (hblank : Blank blanks)
    (heach : ∀ m ∈ members, Settled good depth m.value.core) :
    Settled good (depth + 1)
      (Byte.leftBrace ::
        (blanks ++ (listed true (members.map Member.bytes) ++ [Byte.rightBrace]))) := by
  obtain ⟨found, hgood, hmembers⟩ := readFields_settled heach true
  obtain ⟨hcount, hlength⟩ := length_members members
  refine ⟨found.map .object, fun limit hlimit rest _ => ?_, fun h => ?_⟩
  · simp only [List.length_cons, List.length_append] at hlimit
    have hmost : ∀ m ∈ members, m.value.core.length < limit := by
      intro m hm
      have hle := hlength m hm
      omega
    have hread := hmembers limit hmost limit (by omega) [] rest
    rw [List.cons_append, List.append_assoc, List.append_assoc, List.singleton_append,
      readValue_object, readFields_blank hblank, hread]
    cases found <;> rfl
  · obtain ⟨fs, rfl⟩ := hgood h
    exact ⟨_, rfl⟩

/-- Deeper than what is allowed nothing is read. -/
theorem settled_tooDeep {b : UInt8} {more : Bytes} (hb : b = Byte.leftBracket ∨ b = Byte.leftBrace)
    (hbad : ¬ good) : Settled good 0 (b :: more) := by
  refine ⟨.error .tooDeep, fun limit _ rest _ => ?_, fun h => absurd h hbad⟩
  have hbrace : Byte.leftBrace ≠ Byte.leftBracket := by decide
  rcases hb with rfl | rfl
  · rw [List.cons_append, readValue, skipBlanks_begins (by decide)]
    simp only [if_true]
    rfl
  · rw [List.cons_append, readValue, skipBlanks_begins (by decide)]
    simp only [hbrace, if_true, if_false]
    rfl

theorem Settled.mono {good' : Prop} (h : Settled good depth text) (hgood : good' → good) :
    Settled good' depth text := by
  obtain ⟨found, hfinds, hok⟩ := h
  exact ⟨found, hfinds, fun h => hok (hgood h)⟩

/-- Whatever the grammar allows is read the same wherever it stands, and if its numbers are in range
and it has not too many levels, it is a value. -/
theorem value_settled (hv : ValueText fits depth text) (allowed : Nat) :
    Settled ((∀ t, fits t → InRange t) ∧ depth ≤ allowed) allowed text := by
  induction hv generalizing allowed with
  | null => exact finds_null.settled
  | yes => exact finds_yes.settled
  | no => exact finds_no.settled
  | @number depth text written fitting => exact settled_number written fun h => h.1 text fitting
  | string spelled => exact (finds_string spelled).settled
  | @list depth blanks items blank each ih =>
    cases allowed with
    | zero => exact settled_tooDeep (Or.inl rfl) fun h => Nat.not_succ_le_zero depth h.2
    | succ allowed =>
      refine settled_list blank (fun i hi => value_begins (each i hi)) fun i hi => ?_
      exact (ih i hi allowed).mono fun h => ⟨h.1, Nat.le_of_succ_le_succ h.2⟩
  | @object depth blanks members blank each ih =>
    cases allowed with
    | zero => exact settled_tooDeep (Or.inr rfl) fun h => Nat.not_succ_le_zero depth h.2
    | succ allowed =>
      refine settled_object blank fun m hm => ?_
      exact (ih m hm allowed).mono fun h => ⟨h.1, Nat.le_of_succ_le_succ h.2⟩

end Values

end DebugAdapter.Json
