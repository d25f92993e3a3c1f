import Mathlib.Data.List.Forall2
import Mathlib.Data.List.TakeDrop
import SpeechRom.Json.Printer
import SpeechRom.Json.Reader
import SpeechRom.Proofs.Text.Digits

/-! Flat objects are read back as they were written. A plain value is read up to what follows it,
whatever characters its text has, and so are the members of an object one after another.
-/

namespace SpeechRom

namespace Json

-----------------------------------------------------------------------------------------
-- Strings
-----------------------------------------------------------------------------------------

/-- A unit of a string spells a character: the character itself, or its number if it is a control
character.
-/
inductive StringUnit.Spells : StringUnit → Char → Prop
  | char (c : Char) : Spells (.char c) c
  | code {c : Char} (control : c.toNat < 32) : Spells (.code c.toNat) c

/-- The number of a control character is no half of a pair. -/
theorem decodeUnits?_control {code : Nat} (control : code < 32) (rest : List StringUnit)
    : decodeUnits? (.code code :: rest) = (decodeUnits? rest).map (Char.ofNat code :: ·) := by
  have leading : isLeading code = false := by
    simp only [isLeading, Bool.and_eq_false_iff, decide_eq_false_iff_not]
    omega
  have trailing : isTrailing code = false := by
    simp only [isTrailing, Bool.and_eq_false_iff, decide_eq_false_iff_not]
    omega
  cases rest with
  | nil => simp [decodeUnits?, leading, trailing]
  | cons unit rest => cases unit <;> simp [decodeUnits?, leading, trailing]

theorem decodeUnits?_of_spells {units : List StringUnit} {text : List Char}
    (spelled : List.Forall₂ StringUnit.Spells units text)
    : decodeUnits? units = some text := by
  induction spelled with
  | nil => rfl
  | cons unit _ ih =>
      cases unit with
      | char c => rw [decodeUnits?, ih, Option.map_some]
      | code control => rw [decodeUnits?_control control, ih, Option.map_some, Char.ofNat_toNat]

/-- The four digits of a control character are read as its number. -/
theorem controlDigits (c : Char) (control : c.toNat < 32)
    : ∃ a b d e, Text.padLeft '0' 4 ((Text.hexChars c.toNat).map Char.toLower) = [a, b, d, e]
        ∧ Text.readHex? [a, b, d, e] = some c.toNat := by
  have read := Text.readHex?_lower 4 c.toNat
  have width : (Text.padLeft '0' 4 ((Text.hexChars c.toNat).map Char.toLower)).length = 4 := by
    have short : (Text.hexChars c.toNat).length ≤ 2 := Text.length_hexChars_le_two (by omega)
    rw [Text.padLeft, List.length_append, List.length_replicate, List.length_map]
    omega
  generalize Text.padLeft '0' 4 ((Text.hexChars c.toNat).map Char.toLower) = digits at read width ⊢
  rcases digits with _ | ⟨a, _ | ⟨b, _ | ⟨d, _ | ⟨e, _ | _⟩⟩⟩⟩ <;> cases width
  exact ⟨a, b, d, e, rfl, read⟩

theorem scanString_closing (rest : List Char) : scanString ('"' :: rest) = some ([], rest) := by
  rw [scanString.eq_def]
  rfl

theorem scanString_short {escape c : Char} (short : shortEscape? escape = some c)
    {chars rest : List Char} {units : List StringUnit}
    (scanned : scanString chars = some (units, rest))
    : scanString ('\\' :: escape :: chars) = some (.char c :: units, rest) := by
  rw [scanString.eq_def]
  have four : escape ≠ 'u' := by
    rintro rfl
    cases short
  simp [scanned, short, four]

theorem scanString_code {a b d e : Char} {code : Nat}
    (read : Text.readHex? [a, b, d, e] = some code) {chars rest : List Char}
    {units : List StringUnit} (scanned : scanString chars = some (units, rest))
    : scanString ('\\' :: 'u' :: a :: b :: d :: e :: chars)
      = some (.code code :: units, rest) := by
  rw [scanString.eq_def]
  simp [scanned, read]

/-- A character is written as a unit that spells it. -/
theorem scanString_escapeChar (c : Char) {chars rest : List Char} {units : List StringUnit}
    (scanned : scanString chars = some (units, rest))
    : ∃ unit, unit.Spells c
        ∧ scanString (escapeChar c ++ chars) = some (unit :: units, rest) := by
  have short {escape : Char} (found : shortEscape? escape = some c)
      : ∃ unit, StringUnit.Spells unit c
          ∧ scanString ('\\' :: escape :: chars) = some (unit :: units, rest) :=
    ⟨.char c, .char c, scanString_short found scanned⟩
  have numbered {number : Nat} (same : c.toNat = number) : Char.ofNat number = c := by
    rw [← same, Char.ofNat_toNat]
  unfold escapeChar
  split
  · rename_i quote
    exact short (by simp [shortEscape?, quote])
  split
  · subst c
    exact short rfl
  split
  · exact short (congrArg some (numbered ‹_›))
  split
  · exact short (congrArg some (numbered ‹_›))
  split
  · subst c
    exact short rfl
  split
  · subst c
    exact short rfl
  split
  · subst c
    exact short rfl
  split
  · rename_i control
    obtain ⟨a, b, d, e, digits, read⟩ := controlDigits c control
    rw [digits]
    exact ⟨.code c.toNat, .code control, scanString_code read scanned⟩
  · rename_i noQuote noBackslash _ _ _ _ _ printable
    refine ⟨.char c, .char c, ?_⟩
    rw [List.singleton_append, scanString.eq_def]
    simp [noQuote, noBackslash, printable, scanned]

/-- An escaped text is read up to its closing quote. -/
theorem readString?_escaped (text rest : List Char)
    : readString? (text.flatMap escapeChar ++ '"' :: rest) = some (text, rest) := by
  have scanned : ∃ units, scanString (text.flatMap escapeChar ++ '"' :: rest) = some (units, rest)
      ∧ List.Forall₂ StringUnit.Spells units text := by
    induction text with
    | nil => exact ⟨[], scanString_closing rest, .nil⟩
    | cons c text ih =>
        obtain ⟨units, scanned, spelled⟩ := ih
        obtain ⟨unit, spells, escaped⟩ := scanString_escapeChar c scanned
        rw [List.flatMap_cons, List.append_assoc]
        exact ⟨unit :: units, escaped, .cons spells spelled⟩
  obtain ⟨units, scanned, spelled⟩ := scanned
  rw [readString?, scanned]
  simp [decodeUnits?_of_spells spelled]

-----------------------------------------------------------------------------------------
-- Plain values
-----------------------------------------------------------------------------------------

/-- What is read for a value, if it is a plain one. -/
def Value.plain? : Value → Option Scalar
  | .null => some .null
  | .bool value => some (.bool value)
  | .number value => some (.natural value)
  | .string text => some (.string text.toList)
  | .array _ | .object _ => none

/-- What comes after the value of a member: a comma or the end of the line. -/
inductive FollowsValue : List Char → Prop
  | comma (rest : List Char) : FollowsValue (',' :: rest)
  | line (rest : List Char) : FollowsValue ('\n' :: rest)

theorem readUnsigned?_decimal (value : Nat) {rest : List Char} (follows : FollowsValue rest)
    : readUnsigned? (Text.decimalChars value ++ rest) = some (some value, rest) := by
  have stops : rest.takeWhile Text.isDigit = [] ∧ rest.dropWhile Text.isDigit = rest := by
    cases follows <;> exact ⟨rfl, rfl⟩
  have digits : readDigits? (Text.decimalChars value ++ rest)
      = some (Text.decimalChars value, rest) := by
    rw [readDigits?, List.span_eq_takeWhile_dropWhile,
      List.takeWhile_append_of_pos (Text.isDigit_decimalChars value),
      List.dropWhile_append_of_pos (Text.isDigit_decimalChars value), stops.1, stops.2,
      List.append_nil]
    split
    · rename_i missing
      exact absurd (congrArg Prod.fst missing) (Text.decimalChars_ne_nil value)
    · rfl
  have whole : readWhole? (Text.decimalChars value ++ rest)
      = some (Text.decimalChars value, rest) := by
    rw [readWhole?, digits]
    split
    · rename_i leading
      have starts := congrArg Prod.fst (Option.some.inj leading)
      cases Text.decimalChars_zero starts
    · rfl
  rw [readUnsigned?, whole]
  cases follows <;>
    simp [skipFraction?, skipExponent?, Text.decimalValue_decimalChars]

/-- White space is skipped up to the first other character. -/
theorem skipSpace_append {blanks : List Char} (spaces : ∀ c ∈ blanks, isSpace c) {c : Char}
    (visible : isSpace c = false) (rest : List Char)
    : skipSpace (blanks ++ c :: rest) = c :: rest := by
  rw [skipSpace, List.dropWhile_append_of_pos spaces,
    List.dropWhile_cons_of_neg (by simp [visible])]

theorem not_isSpace_of_isDigit {c : Char} (digit : Text.isDigit c) : isSpace c = false := by
  by_contra space
  simp only [isSpace, Bool.not_eq_false, Bool.or_eq_true, decide_eq_true_eq] at space
  rcases space with ((rfl | rfl) | rfl) | rfl <;> cases digit

/-- A plain value is read up to what follows it. -/
theorem readScalar?_render {value : Value} {scalar : Scalar} (plain : value.plain? = some scalar)
    (depth : Nat) {rest : List Char} (follows : FollowsValue rest)
    : readScalar? (' ' :: ((value.render depth).toList ++ rest)) = some (scalar, rest) := by
  cases value with
  | null =>
      obtain rfl := Option.some.inj plain
      rw [Value.render]
      rfl
  | bool truth =>
      obtain rfl := Option.some.inj plain
      cases truth
      · rw [Value.render]
        rfl
      · rw [Value.render]
        rfl
  | number value =>
      obtain rfl := Option.some.inj plain
      obtain ⟨c, more, digits⟩ := List.exists_cons_of_ne_nil (Text.decimalChars_ne_nil value)
      have digit : Text.isDigit c :=
        Text.isDigit_decimalChars value c (digits ▸ List.mem_cons_self)
      have skipped : skipSpace (' ' :: (Text.decimalChars value ++ rest))
          = Text.decimalChars value ++ rest := by
        have blank : ∀ c ∈ [' '], isSpace c := List.forall_mem_singleton.mpr rfl
        rw [digits]
        exact skipSpace_append blank (not_isSpace_of_isDigit digit) _
      rw [Value.render, Text.decimal, String.toList_ofList, readScalar?, skipped]
      split
      -- A word, a quote or a sign does not begin with a digit.
      iterate 5
        rename_i starts
        rw [digits] at starts
        obtain ⟨rfl, -⟩ := List.cons.inj starts
        cases digit
      rw [readUnsigned?_decimal value follows]
      rfl
  | string text =>
      obtain rfl := Option.some.inj plain
      have quoted : (quote text).toList ++ rest
          = '"' :: (text.toList.flatMap escapeChar ++ '"' :: rest) := by
        simp [quote]
      have skipped : skipSpace (' ' :: '"' :: (text.toList.flatMap escapeChar ++ '"' :: rest))
          = '"' :: (text.toList.flatMap escapeChar ++ '"' :: rest) := rfl
      rw [Value.render, quoted, readScalar?, skipped]
      simp [readString?_escaped]
  | array | object => cases plain

-----------------------------------------------------------------------------------------
-- Members
-----------------------------------------------------------------------------------------

/-- A member is read as a name with a plain value. -/
structure ReadAs (wanted : String → Bool) (member : String × Value) (read : String × Scalar)
    : Prop where
  wanted : wanted member.1
  name : read.1 = member.1
  plain : member.2.plain? = some read.2

/-- The characters of a member. -/
def memberChars (depth : Nat) (member : String × Value) : List Char :=
  '"' :: (member.1.toList.flatMap escapeChar
    ++ '"' :: ':' :: ' ' :: (member.2.render depth).toList)

/-- A member is added to those that were found. A comma leads on to the next one, and the closing
bracket ends the object.
-/
theorem readMembers_member {wanted : String → Bool} {member : String × Value}
    {read : String × Scalar} (reads : ReadAs wanted member read) (depth : Nat)
    {blanks : List Char} (spaces : ∀ c ∈ blanks, isSpace c) (found : List (String × Scalar))
    {rest : List Char} (follows : FollowsValue rest) (rounds : Nat)
    : (∀ more, skipSpace rest = ',' :: more
        → readMembers wanted found (blanks ++ (memberChars depth member ++ rest)) (rounds + 1)
          = readMembers wanted (read :: found) more rounds)
      ∧ (∀ more, skipSpace rest = '\x7d' :: more
        → readMembers wanted found (blanks ++ (memberChars depth member ++ rest)) (rounds + 1)
          = some ((read :: found).reverse, more)) := by
  obtain ⟨name, scalar⟩ := read
  obtain ⟨wants, rfl, plain⟩ := reads
  have colon (chars : List Char) : skipSpace (':' :: chars) = ':' :: chars := rfl
  have value := readScalar?_render plain depth follows
  constructor <;>
  · intro more next
    rw [memberChars, List.cons_append, readMembers, skipSpace_append spaces (by decide)]
    simp only [List.append_assoc, List.cons_append, readString?_escaped, colon,
      String.ofList_toList, wants, if_true, value, Option.map_some, next]

/-- The members of an object after the first, each on a line of its own. -/
def memberLines (members : List (String × Value)) : List Char :=
  members.flatMap fun member => ',' :: '\n' :: ' ' :: ' ' :: memberChars 1 member

/-- Members are read one after another. Witness: by induction on those after the first. -/
theorem readMembers_lines {wanted : String → Bool} {first : String × Value}
    {members : List (String × Value)} {read : String × Scalar} {reads : List (String × Scalar)}
    (firstReads : ReadAs wanted first read) (readsAs : List.Forall₂ (ReadAs wanted) members reads)
    {blanks : List Char} (spaces : ∀ c ∈ blanks, isSpace c) (found : List (String × Scalar))
    {rounds : Nat} (enough : members.length < rounds)
    : readMembers wanted found
        (blanks ++ (memberChars 1 first ++ (memberLines members ++ ['\n', '\x7d']))) rounds
      = some (found.reverse ++ read :: reads, []) := by
  obtain ⟨rounds, rfl⟩ := Nat.exists_eq_add_one.mpr (Nat.zero_lt_of_lt enough)
  induction readsAs generalizing first read found blanks rounds with
  | nil =>
      have last := (readMembers_member firstReads 1 spaces found (.line ['\x7d']) rounds).2 [] rfl
      rw [List.reverse_cons] at last
      exact last
  | @cons second secondRead members reads secondReads _ ih =>
      have next : memberLines (second :: members) ++ ['\n', '\x7d']
          = ',' :: (['\n', ' ', ' ']
              ++ (memberChars 1 second ++ (memberLines members ++ ['\n', '\x7d']))) := by
        simp [memberLines]
      have indented : ∀ c ∈ ['\n', ' ', ' '], isSpace c := List.all_eq_true.mp rfl
      rw [List.length_cons] at enough
      obtain ⟨rounds, rfl⟩ := Nat.exists_eq_add_one.mpr (show 0 < rounds by omega)
      rw [next, (readMembers_member firstReads 1 spaces found (.comma _) (rounds + 1)).1 _ rfl,
        ih secondReads indented _ rounds (by omega), List.reverse_cons, List.append_assoc]
      rfl

theorem length_le_memberLines (members : List (String × Value))
    : members.length ≤ (memberLines members).length := by
  induction members with
  | nil => exact Nat.le_refl 0
  | cons member members ih =>
      rw [memberLines, List.flatMap_cons, List.length_append]
      simp only [memberLines] at ih
      simp only [List.length_cons]
      omega

-----------------------------------------------------------------------------------------
-- Objects
-----------------------------------------------------------------------------------------

theorem renderMembers_eq_map (depth : Nat) (members : List (String × Value))
    : renderMembers depth members
      = members.map fun member => quote member.1 ++ ": " ++ member.2.render depth := by
  induction members with
  | nil => rw [renderMembers, List.map_nil]
  | cons member members ih => rw [renderMembers, ih, List.map_cons]

theorem toList_indented (member : String × Value)
    : (indent 1 ++ (quote member.1 ++ ": " ++ member.2.render 1)).toList
      = ' ' :: ' ' :: memberChars 1 member := by
  simp [indent, quote, memberChars, List.replicate]

theorem intercalate_cons {α : Type} (separator first : List α) (others : List (List α))
    : separator.intercalate (first :: others) = first ++ others.flatMap (separator ++ ·) := by
  induction others generalizing first with
  | nil => simp
  | cons second others ih =>
      rw [List.intercalate_cons_cons, ih, List.flatMap_cons, List.append_assoc,
        List.append_assoc]

/-- An object is written with a line for each member. -/
theorem toList_text_object (first : String × Value) (members : List (String × Value))
    : (Value.object (first :: members)).text.toList
      = '\x7b' :: '\n' :: ' ' :: ' '
          :: (memberChars 1 first ++ (memberLines members ++ ['\n', '\x7d'])) := by
  have lines : (renderMembers 1 (first :: members)).map (String.toList ∘ (indent 1 ++ ·))
      = (first :: members).map fun member => ' ' :: ' ' :: memberChars 1 member := by
    rw [renderMembers_eq_map, List.map_map]
    exact List.map_congr_left fun member _ => toList_indented member
  have body : (String.intercalate ",\n"
        ((renderMembers 1 (first :: members)).map (indent 1 ++ ·))).toList
      = ' ' :: ' ' :: (memberChars 1 first ++ memberLines members) := by
    rw [String.toList_intercalate, List.map_map, lines, List.map_cons, intercalate_cons,
      List.flatMap_map]
    rfl
  have nonempty : (renderMembers 1 (first :: members)).isEmpty = false := by
    rw [renderMembers]
    rfl
  rw [Value.text, Value.render, bracket, nonempty]
  simp only [Bool.false_eq_true, if_false, String.toList_append, Nat.zero_add, body]
  simp [indent]

/-- A flat object is read back from its text. -/
theorem parse?_text_object {wanted : String → Bool} {members : List (String × Value)}
    {reads : List (String × Scalar)} (readsAs : List.Forall₂ (ReadAs wanted) members reads)
    : parse? wanted (Value.object members).text = some (.object reads) := by
  cases readsAs with
  | nil =>
      rw [Value.text, Value.render, renderMembers]
      rfl
  | @cons first read members reads firstReads othersRead =>
      have enough : members.length
          < (memberChars 1 first ++ (memberLines members ++ ['\n', '\x7d'])).length := by
        have lines := length_le_memberLines members
        simp only [List.length_append, List.length_cons]
        omega
      have found := readMembers_lines firstReads othersRead (List.forall_mem_nil _) [] enough
      rw [List.nil_append] at found
      have opened (chars : List Char) : skipSpace ('\x7b' :: chars) = '\x7b' :: chars := rfl
      have skipped : skipSpace ('\n' :: ' ' :: ' '
            :: (memberChars 1 first ++ (memberLines members ++ ['\n', '\x7d'])))
          = memberChars 1 first ++ (memberLines members ++ ['\n', '\x7d']) := rfl
      have document : readDocument? wanted (Value.object (first :: members)).text.toList
          = some (.object (read :: reads), []) := by
        rw [toList_text_object, readDocument?, opened]
        simp only [skipped]
        split
        · rename_i starts
          exact absurd (List.cons.inj starts).1 (by decide)
        · rw [found]
          rfl
      rw [parse?, document]
      rfl

end Json

end SpeechRom
