import WebTestLint.Document.Kind
import WebTestLint.Proofs.Reading

/-!
Asking for a kind of document and having it detected. To detect it the whole text is read as a value
first, and a document that is asked for may hold values that are skipped and cannot be read. It is those
alone that make a difference.
-/

namespace WebTestLint

namespace Json

def Readable (room : Nat) (text : List Char) : Prop := ∃ reading, readValue room text = .ok reading

theorem readValue_of_expectString {text rest : List Char} {string : String}
    (read : expectString text = .ok (string, rest)) (room : Nat) :
    readValue room text = .ok (.string string, rest) := by
  unfold expectString at read
  split at read
  · rename_i body quote
    rw [readValue.eq_def, quote]
    simp [readScalar, read, Except.map]
  · simp at read

theorem readValue_of_expectMap {room : Nat} {text rest : List Char} {members : Members}
    (read : expectMap room text = .ok (members, rest)) :
    readValue (room + 1) text = .ok (.object members, rest) := by
  unfold expectMap at read
  split at read
  · rename_i body opened
    exact readValue_object opened read
  · simp at read

section Fields

variable {σ : Type}

def Field.Reads (room : Nat) (field : Field σ) : Prop :=
  ∀ state text next rest, field.read state text = .ok (next, rest) →
    ∃ value, readValue room text = .ok (value, rest)

theorem readField_cases {fields : List (Field σ)}
    {other : σ → String → List Char → Except Fault (σ × List Char)} {state next : σ} {key : String}
    {text rest : List Char} (read : readField fields other state key text = .ok (next, rest)) :
    (∃ field ∈ fields, field.key = key ∧
      ∃ start, readColon text = .ok start ∧ field.read state start = .ok (next, rest)) ∨
      (key ∉ fields.map Field.key ∧ other state key text = .ok (next, rest)) := by
  unfold readField at read
  split at read
  · rename_i field found
    have same : field.key = key := by simpa using List.find?_some found
    split at read
    · simp [throw, throwThe, MonadExceptOf.throw] at read
    · obtain ⟨start, colon, taken⟩ := bind_eq_ok_iff.mp read
      exact Or.inl ⟨field, List.mem_of_find?_eq_some found, same, start, colon, taken⟩
  · rename_i missing
    refine Or.inr ⟨?_, read⟩
    intro member
    obtain ⟨field, listed, same⟩ := List.mem_map.mp member
    exact absurd same (by simpa using List.find?_eq_none.mp missing field listed)

theorem stepsMembers_readField {fields : List (Field σ)}
    {other : σ → String → List Char → Except Fault (σ × List Char)}
    {accepts : String → List Char → Prop}
    (known : ∀ field ∈ fields, ∀ state start next after, field.read state start = .ok (next, after) →
      skipValue start = .ok after ∧ accepts field.key start)
    (unknown : ∀ state key text next after, key ∉ fields.map Field.key →
      other state key text = .ok (next, after) →
        ∃ start, readColon text = .ok start ∧ skipValue start = .ok after ∧ accepts key start) :
    StepsMembers (readField fields other) accepts := by
  intro state key text next after read
  rcases readField_cases read with ⟨field, listed, rfl, start, colon, taken⟩ | ⟨unlisted, taken⟩
  · exact ⟨start, colon, known field listed state start next after taken⟩
  · exact unknown state key text next after unlisted taken

theorem nextItem_of_endItems {text rest : List Char} (ended : endItems text = .ok rest) (first : Bool) :
    nextItem first text = .ok none ∧ rest = (skipSpace text).drop 1 := by
  unfold endItems at ended
  split at ended
  · rename_i shaped
    obtain rfl := Except.ok.inj ended
    simp [nextItem, shaped]
  · simp at ended
  · split at ended
    · simp at ended
    · simp at ended
  · simp at ended

theorem writtenItems_of_readFields {room : Nat} {fields : List (Field σ)}
    (reads : ∀ field ∈ fields, field.Reads room) {first : Bool} {state next : σ} {text rest : List Char}
    (read : readFields fields first state text = .ok (next, rest)) :
    ∃ starts, WrittenItems first text starts rest ∧ ∀ start ∈ starts, Readable room start := by
  induction fields generalizing first state text with
  | nil =>
      obtain ⟨rest', ended, same⟩ := bind_eq_ok_iff.mp read
      obtain ⟨_, rfl⟩ := Prod.mk.inj (Except.ok.inj same)
      obtain ⟨closed, rfl⟩ := nextItem_of_endItems ended first
      exact ⟨[], .nil closed, by simp⟩
  | cons field fields ih =>
      rw [readFields] at read
      obtain ⟨next', found, read⟩ := bind_eq_ok_iff.mp read
      cases next' with
      | none =>
          obtain ⟨_, rfl⟩ := Prod.mk.inj (Except.ok.inj read)
          exact ⟨[], .nil found, by simp⟩
      | some start =>
          obtain ⟨⟨state', after⟩, taken, read⟩ := bind_eq_ok_iff.mp read
          obtain ⟨readsFirst, readsOthers⟩ := List.forall_mem_cons.mp reads
          obtain ⟨value, readable⟩ := readsFirst _ _ _ _ taken
          obtain ⟨starts, written, each⟩ := ih readsOthers read
          exact ⟨start :: starts, .cons found (steps_readValue room _ _ _ readable) written,
            List.forall_mem_cons.mpr ⟨⟨_, readable⟩, each⟩⟩

/-- What is skipped of a record: the values of an object's members that are no fields. -/
def IsSkipped (keys : List String) (text value : List Char) : Prop :=
  ∃ entries rest, IsObject text entries rest ∧ ∃ key, (key, value) ∈ entries ∧ key ∉ keys

theorem stepsMembers_skipField {room : Nat} {fields : List (Field σ)}
    (reads : ∀ field ∈ fields, field.Reads room) :
    StepsMembers (readField fields skipField) fun key start =>
      key ∈ fields.map Field.key → Readable room start := by
  apply stepsMembers_readField
  · intro field listed state start next after taken
    obtain ⟨value, read⟩ := reads field listed state start next after taken
    exact ⟨steps_readValue room _ _ _ read, fun _ => ⟨_, read⟩⟩
  · intro state key text next after unlisted skipped
    obtain ⟨start, colon, skipped⟩ := bind_eq_ok_iff.mp skipped
    obtain ⟨after', value, same⟩ := bind_eq_ok_iff.mp skipped
    obtain ⟨_, rfl⟩ := Prod.mk.inj (Except.ok.inj same)
    exact ⟨start, colon, value, fun listed => absurd listed unlisted⟩

theorem record_cases {room : Nat} {name : String} {fields : List (Field σ)} {empty next : σ}
    (reads : ∀ field ∈ fields, field.Reads room) {text rest : List Char}
    (read : readRecord name fields empty text = .ok (next, rest)) :
    (∃ entries, IsObject text entries rest ∧
      ∀ entry ∈ entries, entry.1 ∈ fields.map Field.key → Readable room entry.2) ∨
    ((∃ body, skipSpace text = '[' :: body) ∧
      ∃ value, readValue (room + 1) text = .ok (value, rest)) := by
  unfold readRecord at read
  split at read
  · rename_i body opened
    obtain ⟨entries, written, each⟩ := writtenMembers_of_readMembers (stepsMembers_skipField reads) read
    exact Or.inl ⟨entries, ⟨body, opened, written⟩, each⟩
  · rename_i body opened
    obtain ⟨starts, written, each⟩ := writtenItems_of_readFields reads read
    obtain ⟨items, inside⟩ := readItems_of_writtenItems (steps_readValue room) written each
      (Nat.lt_succ_self body.length)
    exact Or.inr ⟨⟨body, opened⟩, _, readValue_array opened inside⟩
  · simp at read

theorem skipValue_of_readRecord {room : Nat} {name : String} {fields : List (Field σ)} {empty next : σ}
    (reads : ∀ field ∈ fields, field.Reads room) {text rest : List Char}
    (read : readRecord name fields empty text = .ok (next, rest)) : skipValue text = .ok rest := by
  rcases record_cases reads read with ⟨entries, object, _⟩ | ⟨_, value, readable⟩
  · exact object.skips.skipValue
  · exact steps_readValue _ _ _ _ readable

theorem readable_entries_iff {room : Nat} {keys : List String} {text rest : List Char}
    {entries : List (String × List Char)} (object : IsObject text entries rest)
    (known : ∀ entry ∈ entries, entry.1 ∈ keys → Readable room entry.2) :
    (∀ entry ∈ entries, Readable room entry.2) ↔
      ∀ value, IsSkipped keys text value → Readable room value := by
  constructor
  · rintro all value ⟨entries', _, object', key, listed, _⟩
    obtain rfl := object.eq object'
    exact all _ listed
  · rintro skipped ⟨key, value⟩ listed
    by_cases field : key ∈ keys
    · exact known _ listed field
    · exact skipped value ⟨entries, rest, object, key, listed, field⟩

theorem readable_record_iff {room : Nat} {name : String} {fields : List (Field σ)} {empty next : σ}
    (reads : ∀ field ∈ fields, field.Reads room) {text rest : List Char}
    (read : readRecord name fields empty text = .ok (next, rest)) :
    Readable (room + 1) text ↔
      ∀ value, IsSkipped (fields.map Field.key) text value → Readable room value := by
  rcases record_cases reads read with ⟨entries, object, known⟩ |
    ⟨⟨body, opened⟩, value, readable⟩
  · rw [← readable_entries_iff object known]
    constructor
    · rintro ⟨⟨whole, rest'⟩, readable⟩
      exact object.readable readable
    · intro all
      obtain ⟨members, readable, _⟩ := object.exists_readValue all
      exact ⟨_, readable⟩
  · refine iff_of_true ⟨_, readable⟩ ?_
    rintro other ⟨entries, _, ⟨body', opened', _⟩, _⟩
    simp [opened] at opened'

end Fields

theorem finish_eq_ok_iff {α : Type} {reading : Reading α} {value : α} :
    finish reading = .ok value ↔ ∃ rest, reading = .ok (value, rest) ∧ skipSpace rest = [] := by
  constructor
  · intro finished
    obtain ⟨⟨value', rest⟩, read, ended⟩ := bind_eq_ok_iff.mp finished
    dsimp only at ended
    split at ended
    · rename_i blank
      obtain rfl := Except.ok.inj ended
      exact ⟨rest, read, blank⟩
    · simp at ended
  · rintro ⟨rest, rfl, blank⟩
    simp [finish, bind, Except.bind, blank, pure, Except.pure]

theorem eq_of_readWord {value read : Value} {letters text rest : List Char}
    (found : readWord value letters text = .ok (read, rest)) : read = value := by
  induction letters generalizing text with
  | nil => exact (Prod.mk.inj (Except.ok.inj found)).1.symm
  | cons letter letters ih =>
      cases text with
      | nil => simp [readWord] at found
      | cons c text =>
          rw [readWord] at found
          split at found
          · exact ih found
          · simp at found

theorem not_readScalar_object {text rest : List Char} {members : Members} :
    readScalar text ≠ .ok (.object members, rest) := by
  intro read
  unfold readScalar at read
  split at read
  · simp at read
  · exact absurd (eq_of_readWord read) (by simp)
  · exact absurd (eq_of_readWord read) (by simp)
  · exact absurd (eq_of_readWord read) (by simp)
  · simp [map_eq_ok_iff] at read
  · simp [map_eq_ok_iff] at read
  · split at read
    · simp [map_eq_ok_iff] at read
    · simp at read

theorem exists_isObject_of_readValue {room : Nat} {text rest : List Char} {members : Members}
    (read : readValue (room + 1) text = .ok (.object members, rest)) :
    ∃ entries, IsObject text entries rest ∧ (∀ entry ∈ entries, Readable room entry.2) ∧
      ∀ key, key ∈ members.map Prod.fst ↔ key ∈ entries.map Prod.fst := by
  rcases readValue_cases read with scalar | ⟨inner, same, ⟨_, _, _, array, _⟩ |
    ⟨body, members', opened, object, inside⟩⟩
  · exact absurd scalar not_readScalar_object
  · simp at array
  · obtain rfl := Nat.succ.inj same
    obtain rfl := Value.object.inj object
    obtain ⟨entries, written, each⟩ := writtenMembers_of_readMembers
      (stepsMembers_readMember (steps_readValue room)) inside
    obtain ⟨members', inside', keys⟩ := readMembers_of_writtenMembers (steps_readValue room) written each
      (Nat.lt_succ_self body.length) []
    obtain ⟨rfl, _⟩ := Prod.mk.inj (Except.ok.inj (inside.symm.trans inside'))
    exact ⟨entries, ⟨body, opened, written⟩, each, by simpa using keys⟩

end Json

namespace Document

open Json (Readable IsObject IsSkipped depthLimit skipValue readValue skipSpace)

theorem reads_configuration (room : Nat) : ∀ field ∈ Configuration.fields, field.Reads room := by
  intro field listed state text next rest read
  rcases List.mem_pair.mp listed with rfl | rfl
  · obtain ⟨⟨browser, after⟩, found, same⟩ := bind_eq_ok_iff.mp read
    obtain ⟨_, rfl⟩ := Prod.mk.inj (Except.ok.inj same)
    exact ⟨_, Json.readValue_of_expectString found room⟩
  · obtain ⟨⟨url, after⟩, found, same⟩ := bind_eq_ok_iff.mp read
    obtain ⟨_, rfl⟩ := Prod.mk.inj (Except.ok.inj same)
    exact ⟨_, Json.readValue_of_expectString found room⟩

theorem reads_page : ∀ field ∈ Page.fields, field.Reads (depthLimit - 1) := by
  intro field listed state text next rest read
  rcases List.mem_pair.mp listed with rfl | rfl
  · obtain ⟨⟨url, after⟩, found, same⟩ := bind_eq_ok_iff.mp read
    obtain ⟨_, rfl⟩ := Prod.mk.inj (Except.ok.inj same)
    exact ⟨_, Json.readValue_of_expectString found _⟩
  · obtain ⟨⟨members, after⟩, found, same⟩ := bind_eq_ok_iff.mp read
    obtain ⟨_, rfl⟩ := Prod.mk.inj (Except.ok.inj same)
    exact ⟨_, Json.readValue_of_expectMap found⟩

theorem readRecord_of_read {text rest : List Char} {configuration : Configuration}
    (read : Configuration.read text = .ok (configuration, rest)) :
    ∃ draft, Json.readRecord "struct ConfigDocument" Configuration.fields ⟨none, none⟩ text =
      .ok (draft, rest) := by
  obtain ⟨⟨draft, after⟩, found, same⟩ := map_eq_ok_iff.mp read
  obtain ⟨_, rfl⟩ := Prod.mk.inj same
  exact ⟨draft, found⟩

theorem isObject_of_read {text rest : List Char} {draft : Test.Draft}
    (read : Test.read text = .ok (draft, rest)) :
    ∃ entries, IsObject text entries rest ∧ ∀ entry ∈ entries,
      if entry.1 = "config" then ∃ reading, Configuration.read entry.2 = .ok reading
      else Readable (depthLimit - 1) entry.2 := by
  unfold Test.read at read
  split at read
  · rename_i body opened
    have steps : Json.StepsMembers (Json.readField Test.fields Test.readStep) fun key start =>
        if key = "config" then ∃ reading, Configuration.read start = .ok reading
        else Readable (depthLimit - 1) start := by
      apply Json.stepsMembers_readField
      · intro field listed state start next after taken
        obtain rfl := List.mem_singleton.mp listed
        obtain ⟨⟨configuration, after'⟩, found, same⟩ := bind_eq_ok_iff.mp taken
        obtain ⟨_, rfl⟩ := Prod.mk.inj (Except.ok.inj same)
        obtain ⟨draft, record⟩ := readRecord_of_read found
        exact ⟨Json.skipValue_of_readRecord (reads_configuration 0) record, ⟨_, found⟩⟩
      · intro state key text next after unlisted taken
        obtain ⟨⟨steps, after'⟩, found, same⟩ := bind_eq_ok_iff.mp taken
        obtain ⟨_, rfl⟩ := Prod.mk.inj (Except.ok.inj same)
        obtain ⟨start, colon, skipped, readable⟩ :=
          Json.stepsMembers_readMember (Json.steps_readValue _) _ _ _ _ _ found
        have other : key ≠ "config" := by simpa [Test.fields] using unlisted
        exact ⟨start, colon, skipped, by rwa [if_neg other]⟩
    obtain ⟨entries, written, each⟩ := Json.writtenMembers_of_readMembers steps read
    exact ⟨entries, ⟨body, opened, written⟩, each⟩
  · simp at read

def Kind.Fits : Kind → List String → Prop
  | .test, keys => "config" ∈ keys
  | .page, keys => "url" ∈ keys ∧ "config" ∉ keys

def Kind.IsWritten (kind : Kind) (text : List Char) : Prop :=
  ∃ entries rest, IsObject text entries rest ∧ kind.Fits (entries.map Prod.fst)

/-- The values that are skipped when a document is loaded as one of a kind, and how many brackets a value
that is read there may open. -/
def Kind.Skips (kind : Kind) (text : List Char) (room : Nat) (value : List Char) : Prop :=
  match kind with
  | .test => room = depthLimit - 2 ∧ ∃ entries rest configuration, IsObject text entries rest ∧
      ("config", configuration) ∈ entries ∧ IsSkipped ["browser", "url"] configuration value
  | .page => room = depthLimit - 1 ∧ IsSkipped ["url", "elements"] text value

theorem contains_iff (members : Json.Members) (key : String) :
    Json.Members.contains members key = true ↔ key ∈ members.map Prod.fst := by
  simp [Json.Members.contains]

theorem detect?_eq_some_iff (value : Json.Value) (kind : Kind) :
    Kind.detect? value = some kind ↔
      ∃ members : Json.Members, value = .object members ∧ kind.Fits (members.map Prod.fst) := by
  cases value with
  | object members =>
      have config := contains_iff members "config"
      have url := contains_iff members "url"
      have detected : Kind.detect? (.object members) = some kind ↔ kind.Fits (members.map Prod.fst) := by
        cases configured : Json.Members.contains members "config" with
        | true =>
            have present := config.mp configured
            cases kind with
            | test => exact iff_of_true (by simp [Kind.detect?, configured]) present
            | page => exact iff_of_false (by simp [Kind.detect?, configured]) fun fits => fits.2 present
        | false =>
            have absent : "config" ∉ members.map Prod.fst := by
              rw [← config, configured]
              exact Bool.false_ne_true
            cases kind with
            | test => exact iff_of_false (by simp [Kind.detect?, configured]) absent
            | page =>
                rw [Kind.Fits, ← url, and_iff_left absent]
                simp [Kind.detect?, configured]
      rw [detected]
      constructor
      · exact fun fits => ⟨members, rfl, fits⟩
      · rintro ⟨_, same, fits⟩
        rwa [Json.Value.object.inj same]
  | _ => simp [Kind.detect?]

theorem kindOf_eq_ok_iff (content : String) (kind : Kind) :
    kindOf content = .ok kind ↔ ∃ entries rest, IsObject content.toList entries rest ∧
      skipSpace rest = [] ∧ kind.Fits (entries.map Prod.fst) ∧
        ∀ entry ∈ entries, Readable (depthLimit - 1) entry.2 := by
  have fits_congr {keys keys' : List String} (same : ∀ key, key ∈ keys ↔ key ∈ keys') :
      kind.Fits keys ↔ kind.Fits keys' := by
    cases kind with
    | test => exact same "config"
    | page => exact and_congr (same "url") (not_congr (same "config"))
  constructor
  · intro found
    obtain ⟨value, parsed, detected⟩ := bind_eq_ok_iff.mp found
    obtain ⟨rest, read, blank⟩ := Json.finish_eq_ok_iff.mp (mapError_eq_ok_iff.mp parsed)
    cases known : Kind.detect? value with
    | none => simp [known, throw, throwThe, MonadExceptOf.throw] at detected
    | some kind' =>
        obtain rfl : kind' = kind := by simpa [known, pure, Except.pure] using detected
        obtain ⟨members, rfl, fits⟩ := (detect?_eq_some_iff value kind').mp known
        obtain ⟨entries, object, each, keys⟩ := Json.exists_isObject_of_readValue read
        exact ⟨entries, rest, object, blank, (fits_congr keys).mp fits, each⟩
  · rintro ⟨entries, rest, object, blank, fits, each⟩
    obtain ⟨members, read, keys⟩ := object.exists_readValue each
    have parsed : Json.Value.ofText content = .ok (.object members) :=
      Json.finish_eq_ok_iff.mpr ⟨rest, read, blank⟩
    have detected := (detect?_eq_some_iff _ kind).mpr ⟨members, rfl, (fits_congr keys).mpr fits⟩
    simp [kindOf, parsed, Except.mapError, bind, Except.bind, detected, pure, Except.pure]

theorem exists_object_of_test {content : String} {test : Test} (loaded : Test.load content = .ok test) :
    ∃ entries rest, IsObject content.toList entries rest ∧ skipSpace rest = [] ∧
      ((∀ entry ∈ entries, Readable (depthLimit - 1) entry.2) ↔
        ∀ room value, Kind.test.Skips content.toList room value → Readable room value) := by
  obtain ⟨draft, parsed, _⟩ := bind_eq_ok_iff.mp loaded
  obtain ⟨rest, read, blank⟩ := Json.finish_eq_ok_iff.mp (mapError_eq_ok_iff.mp parsed)
  obtain ⟨entries, object, each⟩ := isObject_of_read read
  refine ⟨entries, rest, object, blank, ?_⟩
  have readable (configuration : List Char) (listed : ("config", configuration) ∈ entries) :
      Readable (depthLimit - 1) configuration ↔
        ∀ value, IsSkipped ["browser", "url"] configuration value →
          Readable (depthLimit - 2) value := by
    obtain ⟨⟨_, after⟩, found⟩ := each _ listed
    obtain ⟨draft, record⟩ := readRecord_of_read found
    exact Json.readable_record_iff (reads_configuration (depthLimit - 2)) record
  constructor
  · rintro all room value ⟨rfl, entries', _, configuration, object', listed, skipped⟩
    obtain rfl := object.eq object'
    exact (readable configuration listed).mp (all _ listed) value skipped
  · rintro skipped ⟨key, start⟩ listed
    by_cases config : key = "config"
    · subst config
      exact (readable start listed).mpr fun value inside =>
        skipped _ value ⟨rfl, entries, rest, start, object, listed, inside⟩
    · have read := each _ listed
      rwa [if_neg config] at read

theorem exists_object_of_page {content importName : String} {page : Page}
    (loaded : Page.load content importName = .ok page) (written : Kind.page.IsWritten content.toList) :
    ∃ entries rest, IsObject content.toList entries rest ∧ skipSpace rest = [] ∧
      ((∀ entry ∈ entries, Readable (depthLimit - 1) entry.2) ↔
        ∀ room value, Kind.page.Skips content.toList room value → Readable room value) := by
  obtain ⟨draft, parsed, _⟩ := bind_eq_ok_iff.mp loaded
  obtain ⟨rest, read, blank⟩ := Json.finish_eq_ok_iff.mp (mapError_eq_ok_iff.mp parsed)
  rcases Json.record_cases reads_page read with ⟨entries, object, known⟩ | ⟨⟨body, opened⟩, _⟩
  · refine ⟨entries, rest, object, blank, (Json.readable_entries_iff object known).trans ?_⟩
    constructor
    · rintro readable room value ⟨rfl, skipped⟩
      exact readable value skipped
    · intro readable value skipped
      exact readable _ value ⟨rfl, skipped⟩
  · obtain ⟨_, _, ⟨body', opened', _⟩, _⟩ := written
    simp [opened] at opened'

theorem exists_object_of_lintAs {kind : Kind} {content importName : String} {verdict : Verdict}
    (loaded : lintAs kind content importName = .ok verdict) (written : kind.IsWritten content.toList) :
    ∃ entries rest, IsObject content.toList entries rest ∧ skipSpace rest = [] ∧
      ((∀ entry ∈ entries, Readable (depthLimit - 1) entry.2) ↔
        ∀ room value, kind.Skips content.toList room value → Readable room value) := by
  cases kind with
  | test =>
      obtain ⟨test, loaded, _⟩ := map_eq_ok_iff.mp loaded
      exact exists_object_of_test loaded
  | page =>
      obtain ⟨page, loaded, _⟩ := map_eq_ok_iff.mp loaded
      exact exists_object_of_page loaded written

theorem lint_eq_ok_iff (kind? : Option Kind) (content importName : String) (kind : Kind)
    (verdict : Verdict) :
    lint kind? content importName = .ok (kind, verdict) ↔
      kind?.elim (kindOf content) pure = .ok kind ∧ lintAs kind content importName = .ok verdict := by
  constructor
  · intro linted
    obtain ⟨kind', known, linted⟩ := bind_eq_ok_iff.mp linted
    obtain ⟨verdict', loaded, same⟩ := bind_eq_ok_iff.mp linted
    obtain ⟨rfl, rfl⟩ := Prod.mk.inj (Except.ok.inj same)
    exact ⟨known, loaded⟩
  · rintro ⟨known, loaded⟩
    exact bind_eq_ok_iff.mpr ⟨kind, known, bind_eq_ok_iff.mpr ⟨verdict, loaded, rfl⟩⟩

/-- A document is linted as the kind that is detected if it is linted as the kind that is asked for, the
keys of its object tell that kind, and what is skipped when it is loaded could have been read. -/
theorem lint_none_iff (content importName : String) (kind : Kind) (verdict : Verdict) :
    lint none content importName = .ok (kind, verdict) ↔
      lint (some kind) content importName = .ok (kind, verdict) ∧ kind.IsWritten content.toList ∧
        ∀ room value, kind.Skips content.toList room value → Readable room value := by
  rw [lint_eq_ok_iff, lint_eq_ok_iff, Option.elim_none, Option.elim_some, kindOf_eq_ok_iff]
  constructor
  · rintro ⟨⟨entries, rest, object, _, fits, all⟩, loaded⟩
    have written : kind.IsWritten content.toList := ⟨entries, rest, object, fits⟩
    obtain ⟨entries', _, object', _, readable⟩ := exists_object_of_lintAs loaded written
    obtain rfl := object.eq object'
    exact ⟨⟨rfl, loaded⟩, written, readable.mp all⟩
  · rintro ⟨⟨_, loaded⟩, written, skipped⟩
    obtain ⟨entries, rest, object, blank, readable⟩ := exists_object_of_lintAs loaded written
    obtain ⟨entries', _, object', fits⟩ := written
    obtain rfl := object.eq object'
    exact ⟨⟨entries, rest, object, blank, fits, readable.mpr skipped⟩, loaded⟩

theorem lint_differs_overflow :
    ¬ ∀ (content importName : String) (kind : Kind) (result : Kind × Verdict),
      kind.IsWritten content.toList → lint (some kind) content importName = .ok result →
        lint none content importName = .ok result := by
  intro agree
  let content := "\x7b\"config\":\x7b\"retries\":1e999\x7d\x7d"
  let configuration := "\x7b\"retries\":1e999\x7d\x7d".toList
  have opened : skipSpace content.toList = '{' :: content.toList.drop 1 := by decide +kernel
  have key : Json.nextKey true (content.toList.drop 1) = .ok (some ("config", ':' :: configuration)) := by
    decide +kernel
  have value : skipValue configuration = .ok ['}'] := by decide +kernel
  have ended : Json.nextKey false ['}'] = .ok none := by decide +kernel
  have written : Kind.test.IsWritten content.toList :=
    ⟨_, _, ⟨_, opened, .cons key rfl value (.nil ended)⟩, List.mem_cons_self⟩
  have loads : (lint (some .test) content "").isOk = true := by decide +kernel
  have fails : (lint none content "").isOk = false := by decide +kernel
  cases forced : lint (some .test) content "" with
  | error fault => simp [forced, Except.isOk, Except.toBool] at loads
  | ok result =>
      rw [agree content "" .test result written forced] at fails
      simp [Except.isOk, Except.toBool] at fails

end Document

end WebTestLint
