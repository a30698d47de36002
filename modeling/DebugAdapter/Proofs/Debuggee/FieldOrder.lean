import DebugAdapter.Proofs.Debuggee.Drafts
import DebugAdapter.Proofs.Json.Grammar

namespace DebugAdapter.Debuggee.Record

open Json

/-- An object as it is written, with the blanks around it. -/
structure ObjectText where
  before : Bytes := []
  members : List Member
  after : Bytes := []
  blankBefore : Blank before
  blankAfter : Blank after

def ObjectText.bytes (t : ObjectText) : Bytes :=
  t.before ++ Byte.leftBrace ::
    (listed true (t.members.map Member.bytes) ++ Byte.rightBrace :: t.after)

def NamesKind (core : Bytes) (kind : Kind) : Prop :=
  ∀ rest, readKind (core ++ rest) = .ok (kind, rest)

/-- What fields as they are written hold, beside the kind that was found before them: the kind that
is known behind them, and the others in order. -/
inductive Holds : Option Kind → List Member → Option Kind → Fields → Prop where
  | nil (known : Option Kind) : Holds known [] known []
  | kind {m : Member} {members : List Member} {kind : Kind} {found : Option Kind} {fields : Fields}
      (named : m.name = "type") (names : NamesKind m.value.core kind)
      (more : Holds (some kind) members found fields) : Holds none (m :: members) found fields
  | field {known : Option Kind} {m : Member} {members : List Member} {j : Json}
      {found : Option Kind} {fields : Fields} (named : m.name ≠ "type")
      (value : FindsValue (maxDepth - 1) m.value.core (.ok j))
      (more : Holds known members found fields) :
    Holds known (m :: members) found ((m.name, j) :: fields)

variable {fits : Bytes → Prop} {depth most limit : Nat} {m : Member} {members others : List Member}
  {known found : Option Kind} {fields done : Fields} {rest core : Bytes} {r : Record}

theorem readTypedString_blank {lead : Bytes} (hl : Blank lead) (shape : Shape) (rest : Bytes) :
    readTypedString shape (lead ++ rest) = readTypedString shape rest := by
  rw [readTypedString, skipBlanks_blank hl, ← readTypedString]

theorem readKind_other {b : UInt8} (hb : Begins b) (hquote : b ≠ Byte.quote) (more rest : Bytes) :
    ∃ e, readKind (b :: more ++ rest) = .error e := by
  refine ⟨mismatchAt Shape.label.name (b :: (more ++ rest)), ?_⟩
  rw [readKind, List.cons_append, readTypedString, skipBlanks_begins hb.1]
  simp only [hquote, if_false]

/-- Whether a value names a kind does not depend on where it stands. -/
theorem kind_settled (hv : ValueText fits depth core) :
    (∃ kind, NamesKind core kind) ∨ ∀ rest, ∃ e, readKind (core ++ rest) = .error e := by
  cases hv with
  | null => exact Or.inr (readKind_other (by decide) (by decide) _)
  | yes => exact Or.inr (readKind_other (by decide) (by decide) _)
  | no => exact Or.inr (readKind_other (by decide) (by decide) _)
  | number written _ =>
    obtain ⟨b, more, rfl, hb⟩ := numberText_head written
    exact Or.inr (readKind_other (begins_number hb) (ne_of_number hb (by decide)) _)
  | list _ _ => exact Or.inr (readKind_other (by decide) (by decide) _)
  | object _ _ => exact Or.inr (readKind_other (by decide) (by decide) _)
  | @string _ spelling s spelled =>
    have hread (rest : Bytes) : readKind (Byte.quote :: (spelling ++ [Byte.quote]) ++ rest) =
        (Kind.ofName s).map (·, rest) := by
      rw [readKind, List.cons_append, List.append_assoc, List.singleton_append, readTypedString,
        skipBlanks_begins (by decide)]
      simp only [if_true, readString_spells spelled]
    cases hname : Kind.ofName s with
    | ok kind =>
      refine Or.inl ⟨kind, fun rest => ?_⟩
      rw [hread, hname]
      rfl
    | error e =>
      refine Or.inr fun rest => ⟨e, ?_⟩
      rw [hread, hname]
      rfl

theorem readFields_blank {lead : Bytes} (hl : Blank lead) (item : Bytes → Read Json) (limit : Nat)
    (first : Bool) (known : Option Kind) (done : Fields) (rest : Bytes) :
    readFields item limit first known done (lead ++ rest) =
      readFields item limit first known done rest := by
  cases limit with
  | zero => rfl
  | succ limit => rw [readFields, nextField_blank hl, ← readFields]

/-- The kind is read where it stands, if it was not read before. -/
theorem readFields_type (hname : m.name = "type") (item : Bytes → Read Json) (limit : Nat)
    (first : Bool) (known : Option Kind) (done : Fields) (rest : Bytes) :
    readFields item (limit + 1) first known done (separator first ++ (m.bytes ++ rest)) =
      match known with
      | some _ => .error (.duplicateField "type")
      | none =>
        match readKind (m.value.core ++ (m.value.after ++ rest)) with
        | .error e => .error e
        | .ok (kind, rest) => readFields item limit false (some kind) done rest := by
  have hvalue : readKind (m.value.bytes ++ rest) =
      readKind (m.value.core ++ (m.value.after ++ rest)) := by
    rw [Item.bytes, List.append_assoc, List.append_assoc, readKind,
      readTypedString_blank m.value.blankBefore, ← readKind]
  rw [readFields, nextField_listed]
  simp only [readString_spells m.spelled, hname, if_true, skipColon_middle, hvalue]
  cases known <;> rfl

/-- Any other field is read where it stands, and goes before those that follow. -/
theorem readFields_other (hname : m.name ≠ "type") {value : Except ReadError Json}
    (hfinds : Finds (readValue most (maxDepth - 1)) m.value.core value) (hrest : EndsNumber rest)
    (limit : Nat) (first : Bool) (known : Option Kind) (done : Fields) :
    readFields (readValue most (maxDepth - 1)) (limit + 1) first known done
        (separator first ++ (m.bytes ++ rest)) =
      match value with
      | .error e => .error e
      | .ok j =>
        readFields (readValue most (maxDepth - 1)) limit false known ((m.name, j) :: done) rest := by
  rw [readFields, nextField_listed]
  simp only [readString_spells m.spelled, hname, if_false, skipColon_middle,
    readValue_member hfinds hrest]
  cases value with
  | error e => rfl
  | ok j => exact readFields_blank m.value.blankAfter _ limit false known _ rest

/-- What the fields hold is what is read of them. -/
theorem readFields_of_holds (hh : Holds known members found fields)
    (hmost : ∀ m ∈ members, m.value.core.length < most) (hlimit : members.length < limit)
    (first : Bool) (done : Fields) (rest : Bytes) :
    readFields (readValue most (maxDepth - 1)) limit first known done
        (listed first (members.map Member.bytes) ++ Byte.rightBrace :: rest) =
      .ok ((found, done.reverse ++ fields), rest) := by
  induction hh generalizing limit first done with
  | nil known =>
    obtain ⟨limit, rfl⟩ := Nat.exists_eq_add_one_of_ne_zero (Nat.ne_zero_of_lt hlimit)
    rw [List.map_nil, listed, List.nil_append, readFields, nextField_closed, List.append_nil]
  | @kind m members kind found fields named names more ih =>
    obtain ⟨limit, rfl⟩ := Nat.exists_eq_add_one_of_ne_zero (Nat.ne_zero_of_lt hlimit)
    rw [List.forall_mem_cons] at hmost
    rw [List.map_cons, listed, List.append_assoc, List.append_assoc, readFields_type named, names]
    simp only [readFields_blank m.value.blankAfter]
    exact ih hmost.2 (by simpa using hlimit) false done
  | @field known m members j found fields named value more ih =>
    obtain ⟨limit, rfl⟩ := Nat.exists_eq_add_one_of_ne_zero (Nat.ne_zero_of_lt hlimit)
    rw [List.forall_mem_cons] at hmost
    have hrest := endsNumber_listed (Or.inr rfl) (members.map Member.bytes) rest
    rw [List.map_cons, listed, List.append_assoc, List.append_assoc,
      readFields_other named (value most hmost.1) hrest]
    simp only
    rw [ih hmost.2 (by simpa using hlimit)]
    simp

/-- Whatever is read of fields they hold, one by one and wherever they stand. -/
theorem holds_of_readFields {result : (Option Kind × Fields) × Bytes}
    (hv : ∀ m ∈ members, ∃ depth, ValueText fits depth m.value.core)
    (hmost : ∀ m ∈ members, m.value.core.length < most) (first : Bool) (done : Fields) (rest : Bytes)
    (hread : readFields (readValue most (maxDepth - 1)) limit first known done
      (listed first (members.map Member.bytes) ++ Byte.rightBrace :: rest) = .ok result) :
    ∃ found fields, Holds known members found fields ∧
      result = ((found, done.reverse ++ fields), rest) := by
  induction members generalizing limit first known done with
  | nil =>
    cases limit with
    | zero => cases hread
    | succ limit =>
      rw [List.map_nil, listed, List.nil_append, readFields, nextField_closed] at hread
      cases hread
      exact ⟨known, [], .nil known, by rw [List.append_nil]⟩
  | cons m members ih =>
    cases limit with
    | zero => cases hread
    | succ limit =>
      rw [List.forall_mem_cons] at hv hmost
      obtain ⟨⟨depth, hcore⟩, hv⟩ := hv
      rw [List.map_cons, listed, List.append_assoc, List.append_assoc] at hread
      by_cases hname : m.name = "type"
      · rw [readFields_type hname] at hread
        cases known with
        | some _ => cases hread
        | none =>
          rcases kind_settled hcore with ⟨kind, hnames⟩ | hfails
          · rw [hnames] at hread
            simp only [readFields_blank m.value.blankAfter] at hread
            obtain ⟨found, fields, hh, hresult⟩ := ih hv hmost.2 false done hread
            exact ⟨found, fields, .kind hname hnames hh, hresult⟩
          · obtain ⟨e, he⟩ := hfails (m.value.after ++
              (listed false (members.map Member.bytes) ++ Byte.rightBrace :: rest))
            rw [he] at hread
            cases hread
      · have hrest := endsNumber_listed (Or.inr rfl) (members.map Member.bytes) rest
        obtain ⟨value, hfinds, _⟩ := value_settled hcore (maxDepth - 1)
        rw [readFields_other hname (hfinds most hmost.1) hrest] at hread
        cases value with
        | error e => cases hread
        | ok j =>
          obtain ⟨found, fields, hh, rfl⟩ := ih hv hmost.2 false ((m.name, j) :: done) hread
          exact ⟨found, (m.name, j) :: fields, .field hname hfinds hh, by simp⟩

/-- In another order the fields hold the same. -/
theorem Holds.perm {members' : List Member} (hh : Holds known members found fields)
    (hp : members.Perm members') :
    ∃ fields', Holds known members' found fields' ∧ fields.Perm fields' := by
  induction hp generalizing known found fields with
  | nil => exact ⟨fields, hh, .refl fields⟩
  | cons m _ ih =>
    cases hh with
    | kind named names more =>
      obtain ⟨fields', hh', hperm⟩ := ih more
      exact ⟨fields', .kind named names hh', hperm⟩
    | field named value more =>
      obtain ⟨fields', hh', hperm⟩ := ih more
      exact ⟨_, .field named value hh', hperm.cons _⟩
  | swap m m' members =>
    -- the kind cannot stand at both places
    cases hh with
    | kind named names more =>
      cases more with
      | field named' value more => exact ⟨_, .field named' value (.kind named names more), .refl _⟩
    | field named value more =>
      cases more with
      | kind named' names more => exact ⟨_, .kind named' names (.field named value more), .refl _⟩
      | field named' value' more =>
        exact ⟨_, .field named' value' (.field named value more), .swap _ _ _⟩
  | trans _ _ ih ih' =>
    obtain ⟨middle, hmiddle, hperm⟩ := ih hh
    obtain ⟨fields', hh', hperm'⟩ := ih' hmiddle
    exact ⟨fields', hh', hperm.trans hperm'⟩

/-- Further fields add what they hold themselves. -/
theorem Holds.append (hh : Holds known members found fields)
    (hothers : ∀ o ∈ others, o.name ≠ "type" ∧
      ∃ j, FindsValue (maxDepth - 1) o.value.core (.ok j)) :
    ∃ extra : Fields, Holds known (others ++ members) found (extra ++ fields) ∧
      ∀ f ∈ extra, ∃ o ∈ others, f.1 = o.name := by
  induction others with
  | nil => exact ⟨[], hh, by simp⟩
  | cons o others ih =>
    rw [List.forall_mem_cons] at hothers
    obtain ⟨⟨hname, j, hfinds⟩, hothers⟩ := hothers
    obtain ⟨extra, hextra, hnames⟩ := ih hothers
    refine ⟨(o.name, j) :: extra, .field hname hfinds hextra, ?_⟩
    rw [List.forall_mem_cons]
    refine ⟨⟨o, List.mem_cons_self, rfl⟩, fun f hf => ?_⟩
    obtain ⟨other, hmem, heq⟩ := hnames f hf
    exact ⟨other, List.mem_cons_of_mem o hmem, heq⟩

/-- A field that is found stems from a member with its name. -/
theorem Holds.names (hh : Holds known members found fields) :
    ∀ f ∈ fields, ∃ m ∈ members, f.1 = m.name := by
  induction hh with
  | nil => simp
  | kind named names more ih =>
    intro f hf
    obtain ⟨m, hm, heq⟩ := ih f hf
    exact ⟨m, List.mem_cons_of_mem _ hm, heq⟩
  | field named value more ih =>
    rw [List.forall_mem_cons]
    refine ⟨⟨_, List.mem_cons_self, rfl⟩, fun f hf => ?_⟩
    obtain ⟨m, hm, heq⟩ := ih f hf
    exact ⟨m, List.mem_cons_of_mem _ hm, heq⟩

def ObjectText.inner (t : ObjectText) : Bytes :=
  listed true (t.members.map Member.bytes) ++ Byte.rightBrace :: t.after

theorem skipBlanks_object (t : ObjectText) : skipBlanks t.bytes = Byte.leftBrace :: t.inner := by
  rw [ObjectText.bytes, skipBlanks_blank t.blankBefore, skipBlanks_begins (by decide)]
  rfl

theorem expectEnd_object (t : ObjectText) : expectEnd t.after = .ok () := by
  have hskip := skipBlanks_blank t.blankAfter []
  rw [List.append_nil] at hskip
  rw [expectEnd, hskip]
  rfl

/-- An object has fewer fields than bytes, and longer values than it has none. -/
theorem limit_object (t : ObjectText) : t.members.length < itemLimit t.bytes ∧
    ∀ m ∈ t.members, m.value.core.length < itemLimit t.bytes := by
  obtain ⟨hcount, hlength⟩ := length_members t.members
  simp only [itemLimit, ObjectText.bytes, List.length_append, List.length_cons]
  refine ⟨by omega, fun m hm => ?_⟩
  have := hlength m hm
  omega

/-- An object text is read as an object, and nothing but blanks may follow it. -/
theorem ofBytes_eq (t : ObjectText) : ofBytes? t.bytes =
    (readObject (itemLimit t.bytes) t.inner).bind fun (r, rest) =>
      (expectEnd rest).bind fun _ => .ok r := by
  have hbracket : Byte.leftBrace ≠ Byte.leftBracket := by decide
  simp only [ofBytes?, skipBlanks_object, hbracket, if_true, if_false]
  rfl

/-- An object of a known kind whose fields fit that kind is a record. -/
theorem ofBytes_of_holds {t : ObjectText} {kind : Kind}
    (hh : Holds none t.members (some kind) fields) (hr : ofFields kind fields = .ok r) :
    ofBytes? t.bytes = .ok r := by
  obtain ⟨hcount, hlength⟩ := limit_object t
  have hread := readFields_of_holds hh hlength hcount true [] t.after
  have hobject : readObject (itemLimit t.bytes) t.inner = .ok (r, t.after) := by
    rw [readObject, ObjectText.inner, hread]
    simp only [List.reverse_nil, List.nil_append, hr]
    rfl
  rw [ofBytes_eq, hobject]
  simp only [Except.bind, expectEnd_object]

/-- An object that is a record has a known kind, and its fields fit that kind. -/
theorem holds_of_ofBytes {t : ObjectText}
    (hv : ∀ m ∈ t.members, ∃ depth, ValueText fits depth m.value.core)
    (hr : ofBytes? t.bytes = .ok r) :
    ∃ kind fields, Holds none t.members (some kind) fields ∧ ofFields kind fields = .ok r := by
  rw [ofBytes_eq, readObject] at hr
  cases hread : readFields (readValue (itemLimit t.bytes) (maxDepth - 1)) (itemLimit t.bytes) true
      none [] t.inner with
  | error e =>
    rw [hread] at hr
    cases hr
  | ok result =>
    obtain ⟨found, fields, hh, rfl⟩ :=
      holds_of_readFields hv (limit_object t).2 true [] t.after hread
    rw [hread] at hr
    cases found with
    | none => cases hr
    | some kind =>
      simp only [List.reverse_nil, List.nil_append] at hr
      cases hfields : ofFields kind fields with
      | error e =>
        rw [hfields] at hr
        cases hr
      | ok r' =>
        rw [hfields] at hr
        simp only [Except.map, Except.bind, expectEnd_object, Except.ok.injEq] at hr
        exact ⟨kind, fields, hh, by rw [hfields, hr]⟩

/-- Fields that are arranged in another way, and others among them that do not count. -/
theorem ofFields_rearranged {kind : Kind} {extra fields' : Fields}
    (hextra : ∀ f ∈ extra, f.1 ∉ fieldNames) (hp : (extra ++ fields).Perm fields')
    (hr : ofFields kind fields = .ok r) : ofFields kind fields' = .ok r := by
  refine ofFields_perm (fun name hname => ?_) hr
  have hnone : valuesOf name extra = [] := by
    refine valuesOf_of_names fun f hf hne => ?_
    subst hne
    exact hextra f hf hname
  have hperm := valuesOf_perm hp name
  rwa [valuesOf_append, hnone, List.nil_append] at hperm

def writtenDefaults : List (String × Bytes) :=
  [("body", Word.null), ("success", Word.yes), ("request_seq", Word.null), ("message", Word.null)]

theorem default_value (fits : Bytes → Prop) (hm : (m.name, m.value.core) ∈ writtenDefaults) :
    m.name ≠ "type" ∧ ValueText fits 0 m.value.core ∧
      ∃ j, (m.name, j) ∈ defaults ∧ FindsValue (maxDepth - 1) m.value.core (.ok j) := by
  simp only [writtenDefaults, List.mem_cons, List.not_mem_nil, or_false, Prod.mk.injEq] at hm
  rcases hm with ⟨hname, hcore⟩ | ⟨hname, hcore⟩ | ⟨hname, hcore⟩ | ⟨hname, hcore⟩
  · rw [hname, hcore]
    exact ⟨by decide, .null, .null, by simp [defaults], finds_null⟩
  · rw [hname, hcore]
    exact ⟨by decide, .yes, .bool true, by simp [defaults], finds_yes⟩
  · rw [hname, hcore]
    exact ⟨by decide, .null, .null, by simp [defaults], finds_null⟩
  · rw [hname, hcore]
    exact ⟨by decide, .null, .null, by simp [defaults], finds_null⟩

/-- A record stays the same when its fields change places and others of other names come among
them. -/
theorem ofBytes_rearranged {given arranged : ObjectText}
    (hv : ∀ m ∈ given.members, ∃ depth, ValueText fits depth m.value.core)
    (hothers : ∀ o ∈ others, o.name ∉ "type" :: fieldNames ∧ ValueText InRange 126 o.value.core)
    (hp : arranged.members.Perm (given.members ++ others)) (hr : ofBytes? given.bytes = .ok r) :
    ofBytes? arranged.bytes = .ok r := by
  obtain ⟨kind, fields, hh, hfields⟩ := holds_of_ofBytes hv hr
  have hsettled : ∀ o ∈ others, o.name ≠ "type" ∧
      ∃ j, FindsValue (maxDepth - 1) o.value.core (.ok j) := by
    intro o ho
    obtain ⟨hname, hvalue⟩ := hothers o ho
    rw [List.mem_cons, not_or] at hname
    obtain ⟨_, hfinds, hgood⟩ := value_settled hvalue (maxDepth - 1)
    obtain ⟨j, rfl⟩ := hgood ⟨fun _ h => h, Nat.le_refl _⟩
    exact ⟨hname.1, j, hfinds⟩
  obtain ⟨extra, hextra, hnames⟩ := hh.append hsettled
  obtain ⟨fields', hh', hperm⟩ := hextra.perm (List.perm_append_comm.trans hp.symm)
  refine ofBytes_of_holds hh' (ofFields_rearranged (fun f hf hknown => ?_) hperm hfields)
  obtain ⟨o, ho, hname⟩ := hnames f hf
  exact (hothers o ho).1 (List.mem_cons_of_mem _ (hname ▸ hknown))

/-- A field that is left out counts as if it were there with its default. -/
theorem ofBytes_default {full short : ObjectText}
    (hv : ∀ m ∈ short.members, ∃ depth, ValueText fits depth m.value.core)
    (hout : ∀ other ∈ short.members, other.name ≠ m.name)
    (hm : (m.name, m.value.core) ∈ writtenDefaults) (hp : full.members.Perm (m :: short.members)) :
    ofBytes? full.bytes = .ok r ↔ ofBytes? short.bytes = .ok r := by
  obtain ⟨hname, hcore, j, hdefault, hfinds⟩ := default_value fits hm
  have hnone {kind : Kind} {fields : Fields} (hh : Holds none short.members (some kind) fields) :
      valuesOf m.name fields = [] := by
    refine valuesOf_of_names fun f hf hne => ?_
    obtain ⟨other, hother, heq⟩ := hh.names f hf
    exact hout other hother (heq.symm.trans hne)
  constructor
  · intro hr
    have hvFull : ∀ m' ∈ full.members, ∃ depth, ValueText fits depth m'.value.core := by
      intro m' hm'
      rcases List.mem_cons.mp (hp.subset hm') with rfl | hshort
      · exact ⟨0, hcore⟩
      · exact hv m' hshort
    obtain ⟨kind, fields, hh, hfields⟩ := holds_of_ofBytes hvFull hr
    obtain ⟨fields', hh', hperm⟩ := hh.perm hp
    have hfields' := ofFields_perm (fun name _ => valuesOf_perm hperm name) hfields
    cases hh' with
    | kind named _ _ => exact absurd named hname
    | field _ value more =>
      rw [value.unique hfinds] at hfields'
      exact ofBytes_of_holds more ((ofFields_default hdefault (hnone more)).mp hfields')
  · intro hr
    obtain ⟨kind, fields, hh, hfields⟩ := holds_of_ofBytes hv hr
    have hfull := (ofFields_default hdefault (hnone hh)).mpr hfields
    obtain ⟨fields', hh', hperm⟩ := (Holds.field hname hfinds hh).perm hp.symm
    exact ofBytes_of_holds hh' (ofFields_perm (fun name _ => valuesOf_perm hperm name) hfull)

/-- The fields of a record may stand in any order, and others of other names may stand among them;
and a field that is left out counts as if it were there with its default. -/
theorem fields_in_any_order_among_others :
    (∀ (given arranged : ObjectText) (others : List Member) (r : Record),
      (∀ m ∈ given.members, ∃ depth, ValueText (fun _ => True) depth m.value.core) →
      (∀ o ∈ others, o.name ∉ "type" :: fieldNames ∧ ValueText InRange 126 o.value.core) →
      arranged.members.Perm (given.members ++ others) →
      ofBytes? given.bytes = .ok r → ofBytes? arranged.bytes = .ok r) ∧
    ∀ (full short : ObjectText) (m : Member),
      (∀ m ∈ short.members, ∃ depth, ValueText (fun _ => True) depth m.value.core) →
      (∀ other ∈ short.members, other.name ≠ m.name) →
      (m.name, m.value.core) ∈ writtenDefaults → full.members.Perm (m :: short.members) →
      ∀ r, ofBytes? full.bytes = .ok r ↔ ofBytes? short.bytes = .ok r :=
  ⟨fun _ _ _ _ hv hothers hp hr => ofBytes_rearranged hv hothers hp hr,
    fun _ _ _ hv hout hm hp _ => ofBytes_default hv hout hm hp⟩

/-- A field without blanks whose name spells itself. -/
def tight (name : String) (core : Bytes) (hname : (Bytes.ofString name).all fun b =>
    b != Byte.quote && b != Byte.backslash && 0x20 ≤ b) : Member where
  spelling := .ofString name
  name
  value := { core, blankBefore := by simp [Blank], blankAfter := by simp [Blank] }
  blankBefore := by simp [Blank]
  blankMiddle := by simp [Blank]
  spelled := spells_plain hname

def eventKind : Member :=
  tight "type" (Byte.quote :: (Bytes.ofString "event" ++ [Byte.quote])) (by decide)

def eventName : Member :=
  tight "event" (Byte.quote :: (Bytes.ofString "stopped" ++ [Byte.quote])) (by decide)

def stranger : Member :=
  tight "x" (.ofString "[12,\x7b\x7d]") (by decide)

theorem stranger_value : ValueText InRange 126 stranger.value.core := by
  have hblank : Blank [] := by simp [Blank]
  have hdigits : Digits [0x31, 0x32] := by
    refine ⟨List.cons_ne_nil _ _, ?_⟩
    rw [List.forall_mem_cons, List.forall_mem_singleton]
    decide
  have hnumber : NumberText ([] ++ ([0x31, 0x32] ++ ([] ++ []))) :=
    .parts (Or.inl rfl) hdigits (by decide) .none .none
  have hrange : InRange [0x31, 0x32] := by
    have hread : readNumber [0x31, 0x32] = .ok (.int 12, []) := rfl
    rw [InRange, hread]
    nofun
  have hobject : ValueText InRange 125 [Byte.leftBrace, Byte.rightBrace] :=
    @ValueText.object InRange 124 [] [] hblank (by simp)
  refine @ValueText.list InRange 125 [] [⟨[], [0x31, 0x32], [], hblank, hblank⟩,
    ⟨[], [Byte.leftBrace, Byte.rightBrace], [], hblank, hblank⟩] hblank ?_
  rw [List.forall_mem_cons, List.forall_mem_singleton]
  exact ⟨.number hnumber hrange, hobject⟩

/-- An event whose kind comes last, among fields that say nothing, and one with a body of null. -/
theorem late_kind_read :
    let given : ObjectText := ⟨[], [eventKind, eventName], [], by simp [Blank], by simp [Blank]⟩
    let arranged : ObjectText := ⟨[0x20], [stranger, eventName, stranger, eventKind], [0x09],
      by simp [Blank], by simp [Blank]⟩
    let full : ObjectText := ⟨[], [eventKind, tight "body" Word.null (by decide), eventName], [],
      by simp [Blank], by simp [Blank]⟩
    ofBytes? given.bytes = .ok (.event "stopped" .null) ∧
      ofBytes? arranged.bytes = .ok (.event "stopped" .null) ∧
      ofBytes? full.bytes = .ok (.event "stopped" .null) := by
  intro given arranged full
  have hread : ofBytes? given.bytes = .ok (.event "stopped" .null) := rfl
  have hvalues : ∀ m ∈ given.members, ∃ depth, ValueText (fun _ => True) depth m.value.core := by
    rw [List.forall_mem_cons, List.forall_mem_singleton]
    exact ⟨⟨0, .string (spells_plain (by decide))⟩, ⟨0, .string (spells_plain (by decide))⟩⟩
  refine ⟨hread, ?_, ?_⟩
  · refine fields_in_any_order_among_others.1 given arranged [stranger, stranger] _ hvalues ?_ ?_ hread
    · rw [List.forall_mem_cons, List.forall_mem_singleton]
      exact ⟨⟨by decide, stranger_value⟩, ⟨by decide, stranger_value⟩⟩
    · have hswap : [stranger, eventName, stranger, eventKind].Perm
          [stranger, stranger, eventKind, eventName] :=
        .cons _ ((List.Perm.swap _ _ _).trans (.cons _ (.swap _ _ _)))
      exact hswap.trans (@List.perm_append_comm _ [stranger, stranger] [eventKind, eventName])
  · refine (fields_in_any_order_among_others.2 full given (tight "body" Word.null (by decide)) hvalues
      ?_ ?_ ?_ _).mpr hread
    · rw [List.forall_mem_cons, List.forall_mem_singleton]
      exact ⟨by decide, by decide⟩
    · exact List.mem_cons_self
    · exact .swap _ _ _

end DebugAdapter.Debuggee.Record
