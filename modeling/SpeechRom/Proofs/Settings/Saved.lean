import Mathlib.Data.List.Nodup
import SpeechRom.Proofs.Json.RoundTrip
import SpeechRom.Settings.File

/-! Settings files are read as they were written. Each member gives back its setting, those that are
left out keep their defaults, and the settings are checked as ever.
-/

namespace SpeechRom

/-- An object with those of its members whose names are kept. -/
def Json.Value.restrict (kept : String → Bool) : Json.Value → Json.Value
  | .object members => .object (members.filter (kept ·.1))
  | value => value

namespace Settings

-----------------------------------------------------------------------------------------
-- Settings one by one
-----------------------------------------------------------------------------------------

/-- The JSON value of one setting. -/
def value (settings : Settings) : Key → Json.Value
  | .rom => optional .string settings.rom
  | .annotations => optional .string settings.annotations
  | .output => optional .string settings.output
  | .origin => optional (fun origin => .number origin.toNat) settings.origin
  | .commentChar => .string (String.ofList [settings.commentChar])
  | .dumpSymbols => .bool settings.dumpSymbols
  | .dumpReferences => .bool settings.dumpReferences
  | .exportSymbols => optional .string settings.exportSymbols
  | .verbosity => .number settings.verbosity.toNat
  | .showProgress => .bool settings.showProgress

/-- Settings with one of them taken from others. -/
def copy (settings source : Settings) : Key → Settings
  | .rom => { settings with rom := source.rom }
  | .annotations => { settings with annotations := source.annotations }
  | .output => { settings with output := source.output }
  | .origin => { settings with origin := source.origin }
  | .commentChar => { settings with commentChar := source.commentChar }
  | .dumpSymbols => { settings with dumpSymbols := source.dumpSymbols }
  | .dumpReferences => { settings with dumpReferences := source.dumpReferences }
  | .exportSymbols => { settings with exportSymbols := source.exportSymbols }
  | .verbosity => { settings with verbosity := source.verbosity }
  | .showProgress => { settings with showProgress := source.showProgress }

/-- The settings that are kept, with others in place of the rest. -/
def keeping (settings : Settings) (kept : Key → Bool) (others : Settings) : Settings where
  rom := if kept .rom then settings.rom else others.rom
  annotations := if kept .annotations then settings.annotations else others.annotations
  output := if kept .output then settings.output else others.output
  origin := if kept .origin then settings.origin else others.origin
  commentChar := if kept .commentChar then settings.commentChar else others.commentChar
  dumpSymbols := if kept .dumpSymbols then settings.dumpSymbols else others.dumpSymbols
  dumpReferences := if kept .dumpReferences then settings.dumpReferences else others.dumpReferences
  exportSymbols := if kept .exportSymbols then settings.exportSymbols else others.exportSymbols
  verbosity := if kept .verbosity then settings.verbosity else others.verbosity
  showProgress := if kept .showProgress then settings.showProgress else others.showProgress

theorem json_eq_map (settings : Settings)
    : settings.json = .object (Key.all.map fun key => (key.name, settings.value key)) := rfl

theorem ofName?_name (key : Key) : Key.ofName? key.name = some key := by
  cases key <;> decide

/-- What is read for the value of a setting. -/
def scalar (settings : Settings) (key : Key) : Json.Scalar :=
  (settings.value key).plain?.getD .null

theorem plain?_value (settings : Settings) (key : Key)
    : (settings.value key).plain? = some (settings.scalar key) := by
  have optionalPlain {α : Type} {json : α → Json.Value}
      (plain : ∀ value, ∃ scalar, (json value).plain? = some scalar) (field : Option α)
      : ∃ scalar, (optional json field).plain? = some scalar := by
    cases field with
    | none => exact ⟨.null, rfl⟩
    | some value => exact plain value
  have plain : ∃ scalar, (settings.value key).plain? = some scalar := by
    cases key with
    | rom | annotations | output | exportSymbols => exact optionalPlain (fun _ => ⟨_, rfl⟩) _
    | origin => exact optionalPlain (fun _ => ⟨_, rfl⟩) _
    | commentChar | dumpSymbols | dumpReferences | verbosity | showProgress => exact ⟨_, rfl⟩
  obtain ⟨found, plain⟩ := plain
  rw [scalar, plain, Option.getD_some]

/-- The value of a setting gives it back. -/
theorem set?_scalar (settings source : Settings) (key : Key)
    : settings.set? key (source.scalar key) = some (settings.copy source key) := by
  have path (field : Option String)
      : pathOf? ((optional Json.Value.string field).plain?.getD .null) = some field := by
    cases field with
    | none => rfl
    | some text => exact congrArg (some ∘ some) String.ofList_toList
  cases key with
  | rom => exact congrArg (Option.map _) (path source.rom)
  | annotations => exact congrArg (Option.map _) (path source.annotations)
  | output => exact congrArg (Option.map _) (path source.output)
  | exportSymbols => exact congrArg (Option.map _) (path source.exportSymbols)
  | dumpSymbols | dumpReferences | showProgress => rfl
  | origin =>
      have address : addressOf? (source.scalar .origin) = some source.origin := by
        rw [scalar, value]
        cases source.origin with
        | none => rfl
        | some byte =>
            have back : UInt32.ofNat byte.toNat = byte := UInt32.ofNat_toNat
            exact (if_pos byte.toNat_lt).trans (congrArg (some ∘ some) back)
      exact congrArg (Option.map _) address
  | commentChar =>
      have char : charOf? (source.scalar .commentChar) = some source.commentChar := by
        simp [scalar, value, Json.Value.plain?, charOf?]
      exact congrArg (Option.map _) char
  | verbosity =>
      have level : smallOf? (source.scalar .verbosity) = some source.verbosity :=
        (if_pos source.verbosity.toNat_lt).trans (congrArg some UInt8.ofNat_toNat)
      exact congrArg (Option.map _) level

-----------------------------------------------------------------------------------------
-- Objects
-----------------------------------------------------------------------------------------

/-- Members for different keys give back their settings, by induction on the keys. -/
theorem ofMembers?_map (source : Settings) {keys : List Key} (distinct : keys.Nodup)
    {seen : List Key} (fresh : ∀ key ∈ keys, key ∉ seen) (settings : Settings)
    : ofMembers? settings seen (keys.map fun key => (key.name, source.scalar key))
      = some (keys.foldl (·.copy source ·) settings) := by
  induction keys generalizing seen settings with
  | nil => rfl
  | cons key keys ih =>
      obtain ⟨apart, distinct⟩ := List.nodup_cons.mp distinct
      obtain ⟨unseen, fresh⟩ := List.forall_mem_cons.mp fresh
      have later : ∀ other ∈ keys, other ∉ key :: seen := by
        intro other member
        rw [List.mem_cons, not_or]
        exact ⟨fun same => apart (same ▸ member), fresh other member⟩
      rw [List.map_cons, ofMembers?, ofName?_name]
      simp only [List.contains_eq_mem, unseen, decide_false, Bool.false_eq_true, if_false,
        set?_scalar]
      rw [ih distinct later, List.foldl_cons]

/-- Copying adds a key to those of which the settings are kept. -/
theorem copy_keeping (settings others : Settings) (kept : Key → Bool) (key : Key)
    : (settings.keeping kept others).copy settings key
      = settings.keeping (fun other => kept other || other = key) others := by
  cases key <;> simp [keeping, copy]

theorem foldl_copy_keeping (settings others : Settings) (kept : Key → Bool) (keys : List Key)
    : keys.foldl (·.copy settings ·) (settings.keeping kept others)
      = settings.keeping (fun other => kept other || other ∈ keys) others := by
  induction keys generalizing kept with
  | nil => simp
  | cons key keys ih =>
      rw [List.foldl_cons, copy_keeping, ih]
      simp [Bool.or_assoc]

/-- An object of settings with members left out is read as the settings that are kept. -/
theorem parse?_restrict (settings : Settings) (kept : String → Bool)
    : parse? (settings.json.restrict kept).text
      = some (settings.keeping (fun key => kept key.name) {}) := by
  let keys := Key.all.filter fun key => kept key.name
  have members : settings.json.restrict kept
      = .object (keys.map fun key => (key.name, settings.value key)) := by
    rw [json_eq_map, Json.Value.restrict, List.filter_map]
    rfl
  have distinct : keys.Nodup := List.Nodup.filter _ (by decide)
  have readsAs : List.Forall₂ (Json.ReadAs fun name => (Key.ofName? name).isSome)
      (keys.map fun key => (key.name, settings.value key))
      (keys.map fun key => (key.name, settings.scalar key)) := by
    rw [List.forall₂_map_left_iff, List.forall₂_map_right_iff, List.forall₂_same]
    exact fun key _ => ⟨by rw [ofName?_name]; rfl, rfl, settings.plain?_value key⟩
  have all (key : Key) : key ∈ Key.all := by cases key <;> decide
  have copied := settings.foldl_copy_keeping {} (fun _ => false) keys
  simp only [keys, Bool.false_or, List.mem_filter, all, true_and, Bool.decide_eq_true] at copied
  rw [parse?, members, Json.parse?_text_object readsAs]
  exact (ofMembers?_map settings distinct (fun _ _ => List.not_mem_nil) {}).trans
    (congrArg some copied)

-----------------------------------------------------------------------------------------
-- Files
-----------------------------------------------------------------------------------------

/-- Settings that were checked: themselves if they are valid, and otherwise their fault. -/
def checked (settings : Settings) : Except LoadError Settings :=
  (settings.validate.mapError .invalid).map fun _ => settings

theorem ofText_eq_checked {text : String} {settings : Settings}
    (parsed : parse? text = some settings)
    : ofText text = settings.checked := by
  simp only [ofText, parsed, checked, validate]
  cases settings.fault? <;> rfl

/-- The bytes of a text are read as the text. -/
theorem load_toUTF8 (path text : String) : load path (.ok text.toUTF8.data) = ofText text := by
  have valid : String.fromUTF8? (ByteArray.mk text.toUTF8.data) = some text :=
    dif_pos text.isValidUTF8
  simp only [load, Bytes.text?, valid]

theorem restrict_all (settings : Settings)
    : settings.json.restrict (fun _ => true) = settings.json := by
  rw [json_eq_map, Json.Value.restrict, List.filter_true]

theorem keeping_all (settings others : Settings)
    : settings.keeping (fun _ => true) others = settings := rfl

/-- Loading a file that settings were saved to gives them back if they are valid, and their fault
otherwise. If members are left out, it gives the settings with the defaults in their place, checked
in the same way, and a fault is reported by its message behind the kind of the error.
-/
theorem load_saved (settings : Settings) (path : String)
    : load path (.ok settings.text.toUTF8.data) = settings.checked
      ∧ (∀ kept : String → Bool,
          load path (.ok (settings.json.restrict kept).text.toUTF8.data)
          = (settings.keeping (fun key => kept key.name) {}).checked)
      ∧ ∀ kept : String → Bool,
          let read := settings.keeping (fun key => kept key.name) {}
          (load path (.ok (settings.json.restrict kept).text.toUTF8.data)).mapError
              LoadError.message
          = (read.validate.mapError fun fault => "Validation error: " ++ fault.message).map
              fun _ => read := by
  have partly (kept : String → Bool)
      : load path (.ok (settings.json.restrict kept).text.toUTF8.data)
        = (settings.keeping (fun key => kept key.name) {}).checked := by
    rw [load_toUTF8, ofText_eq_checked (settings.parse?_restrict kept)]
  have whole := partly fun _ => true
  rw [restrict_all, keeping_all] at whole
  refine ⟨whole, partly, ?_⟩
  intro kept read
  rw [partly, checked]
  cases read.validate <;> rfl

end Settings

end SpeechRom
