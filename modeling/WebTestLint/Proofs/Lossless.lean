import WebTestLint.Report.Json
import WebTestLint.Proofs.Written

/-!
The report for programs loses nothing. A reader that takes a member that is left out for an absent text
or an empty list gets back the files and the summary, so two reports are never written alike.
-/

namespace WebTestLint.Report

open Json (Value)

def member? (key : String) : Value → Option Value
  | .object members => members.lookup key
  | _ => none

def text? : Value → Option String
  | .string text => some text
  | _ => none

def count? : Value → Option Nat
  | .number (.natural value) => some value
  | _ => none

def items? (read : Value → Option α) : Value → Option (List α)
  | .array items => items.mapM read
  | _ => none

def optionalText? (key : String) (value : Value) : Option (Option String) :=
  match member? key value with
  | none => some none
  | some member => (text? member).map some

def optionalItems? (read : Value → Option α) (key : String) (value : Value) : Option (List α) :=
  match member? key value with
  | none => some []
  | some member => items? read member

def Status.ofName? (name : String) : Option Status :=
  [Status.valid, Status.invalid, Status.error].find? (·.name == name)

def kindOfName? (name : String) : Option Document.Kind :=
  [Document.Kind.test, Document.Kind.page].find? (kindName · == name)

def contextOfValue? (value : Value) : Option (String × String) := do
  let key ← member? "key" value >>= text?
  let text ← member? "value" value >>= text?
  pure (key, text)

def Entry.ofValue? (value : Value) : Option Entry := do
  let layer ← member? "type" value >>= text?
  let reason ← member? "reason" value >>= text?
  let subject ← member? "subject" value >>= text?
  let context ← optionalItems? contextOfValue? "context" value
  pure { layer, reason, subject, context }

def File.ofValue? (value : Value) : Option File := do
  let file ← member? "file" value >>= text?
  let kindName? ← optionalText? "kind" value
  let kind? ← kindName?.mapM kindOfName?
  let status ← member? "status" value >>= text? >>= Status.ofName?
  let chain ← optionalItems? Entry.ofValue? "chain" value
  let error? ← optionalText? "error" value
  pure { file, kind?, status, chain, error? }

def Summary.ofValue? (value : Value) : Option Summary := do
  let files ← member? "files" value >>= count?
  let valid ← member? "valid" value >>= count?
  let invalid ← member? "invalid" value >>= count?
  let loadErrors ← member? "load_errors" value >>= count?
  pure { files, valid, invalid, loadErrors }

def ofValue? (value : Value) : Option (List File × Summary) := do
  let files ← member? "files" value >>= items? File.ofValue?
  let summary ← member? "summary" value >>= Summary.ofValue?
  pure (files, summary)

theorem lookup_listMember (key other : String) (items : List Value) :
    (listMember other items).lookup key =
      if key = other ∧ items ≠ [] then some (.array items) else none := by
  cases items with
  | nil => simp [listMember]
  | cons item items =>
      by_cases same : key = other
      · simp [listMember, same]
      · have missed : (key == other) = false := by simpa using same
        simp [listMember, same, List.lookup_cons, missed]

theorem lookup_textMember (key other : String) (text? : Option String) :
    (textMember other text?).lookup key = if key = other then text?.map .string else none := by
  cases text? with
  | none => simp [textMember]
  | some text =>
      by_cases same : key = other
      · simp [textMember, same]
      · have missed : (key == other) = false := by simpa using same
        simp [textMember, same, List.lookup_cons, missed]

theorem optionalText?_of_member {key : String} {value : Value} {text? : Option String}
    (member : member? key value = text?.map .string) : optionalText? key value = some text? := by
  rw [optionalText?, member]
  cases text? with
  | none => rfl
  | some text => rfl

theorem items?_map {α : Type} {read : Value → Option α} {write : α → Value}
    (inverse : ∀ item, read (write item) = some item) (items : List α) :
    items? read (.array (items.map write)) = some items := by
  rw [items?]
  induction items with
  | nil => rfl
  | cons item items ih => simp [inverse, ih]

theorem optionalItems?_of_member {α : Type} {read : Value → Option α} {write : α → Value}
    (inverse : ∀ item, read (write item) = some item) {key : String} {value : Value} {items : List α}
    (member : member? key value = (listMember key (items.map write)).lookup key) :
    optionalItems? read key value = some items := by
  rw [optionalItems?, member, lookup_listMember]
  cases items with
  | nil => simp
  | cons item items => simpa using items?_map inverse (item :: items)

theorem contextOfValue?_contextValue (entry : String × String) :
    contextOfValue? (contextValue entry) = some entry := rfl

theorem Entry.ofValue?_value (entry : Entry) : Entry.ofValue? entry.value = some entry := by
  have context : optionalItems? contextOfValue? "context" entry.value = some entry.context := by
    apply optionalItems?_of_member contextOfValue?_contextValue
    simp [Entry.value, member?, List.lookup_cons]
  simp only [Entry.ofValue?, context]
  rfl

theorem Status.ofName?_name (status : Status) : Status.ofName? status.name = some status := by
  cases status with
  | valid => rfl
  | invalid => rfl
  | error => rfl

theorem kindOfName?_kindName (kind : Document.Kind) : kindOfName? (kindName kind) = some kind := by
  cases kind with
  | test => rfl
  | page => rfl

theorem File.ofValue?_value (file : File) : File.ofValue? file.value = some file := by
  have name : member? "file" file.value = some (.string file.file) := by
    simp [File.value, member?]
  have kind : optionalText? "kind" file.value = some (file.kind?.map kindName) := by
    apply optionalText?_of_member
    simp [File.value, member?, List.lookup_cons, List.lookup_append, lookup_textMember, lookup_listMember]
  have known : (file.kind?.map kindName).mapM kindOfName? = some file.kind? := by
    cases file.kind? with
    | none => rfl
    | some kind => simp [kindOfName?_kindName]
  have status : member? "status" file.value = some (.string file.status.name) := by
    simp [File.value, member?, List.lookup_cons, List.lookup_append, lookup_textMember]
  have chain : optionalItems? Entry.ofValue? "chain" file.value = some file.chain := by
    apply optionalItems?_of_member Entry.ofValue?_value
    simp [File.value, member?, List.lookup_cons, List.lookup_append, lookup_textMember, lookup_listMember]
  have error : optionalText? "error" file.value = some file.error? := by
    apply optionalText?_of_member
    simp [File.value, member?, List.lookup_cons, List.lookup_append, lookup_textMember, lookup_listMember]
  simp [File.ofValue?, name, kind, known, status, chain, error, text?, Status.ofName?_name]

theorem Summary.ofValue?_value (summary : Summary) : Summary.ofValue? summary.value = some summary := rfl

theorem ofValue?_value (files : List File) : ofValue? (value files) = some (files, Summary.of files) := by
  have read := items?_map File.ofValue?_value files
  have member : member? "files" (value files) = some (.array (files.map File.value)) := rfl
  have summary : member? "summary" (value files) = some (Summary.of files).value := rfl
  simp [ofValue?, member, summary, read, Summary.ofValue?_value]

theorem keys_textMember (key : String) (text? : Option String) :
    ((textMember key text?).map Prod.fst).Sublist [key] := by
  cases text? with
  | none => simp [textMember]
  | some text => simp [textMember]

theorem keys_listMember (key : String) (items : List Value) :
    ((listMember key items).map Prod.fst).Sublist [key] := by
  cases items with
  | nil => simp [listMember]
  | cons item items => simp [listMember]

theorem isPlain_of_mem_textMember {room : Nat} {key : String} {text? : Option String} :
    ∀ member ∈ textMember key text?, member.2.IsPlain room := by
  intro member listed
  obtain ⟨text, _, rfl⟩ := List.mem_map.mp listed
  exact .string text

theorem isPlain_of_mem_listMember {room : Nat} {key : String} {items : List Value}
    (each : ∀ item ∈ items, item.IsPlain room) :
    ∀ member ∈ listMember key items, member.2.IsPlain (room + 1) := by
  intro member listed
  cases items with
  | nil => simp [listMember] at listed
  | cons item items =>
      obtain rfl := List.mem_singleton.mp listed
      exact .array each

theorem isPlain_contextValue (room : Nat) (entry : String × String) :
    (contextValue entry).IsPlain (room + 1) := by
  apply Value.IsPlain.object
  · simp
  · simp [Value.IsPlain.string]

theorem Entry.isPlain_value (room : Nat) (entry : Entry) : entry.value.IsPlain (room + 3) := by
  have context : ∀ item ∈ entry.context.map contextValue, item.IsPlain (room + 1) := by
    intro item listed
    obtain ⟨pair, _, rfl⟩ := List.mem_map.mp listed
    exact isPlain_contextValue room pair
  apply Value.IsPlain.object
  · have keys := keys_listMember "context" (entry.context.map contextValue)
    have distinct : ["type", "reason", "subject", "context"].Nodup := by decide
    refine distinct.sublist ?_
    rw [List.map_append]
    exact (List.Sublist.refl _).append keys
  · refine List.forall_mem_append.mpr ⟨?_, isPlain_of_mem_listMember context⟩
    simp [Value.IsPlain.string]

theorem File.isPlain_value (room : Nat) (file : File) : file.value.IsPlain (room + 5) := by
  have chain : ∀ item ∈ file.chain.map Entry.value, item.IsPlain (room + 3) := by
    intro item listed
    obtain ⟨entry, _, rfl⟩ := List.mem_map.mp listed
    exact Entry.isPlain_value room entry
  apply Value.IsPlain.object
  · have distinct : ["file", "kind", "status", "chain", "error"].Nodup := by decide
    refine distinct.sublist ?_
    simp only [List.map_append]
    exact ((((List.Sublist.refl ["file"]).append (keys_textMember "kind" _)).append
      (List.Sublist.refl ["status"])).append (keys_listMember "chain" _)).append
        (keys_textMember "error" _)
  · simp only [List.forall_mem_append]
    refine ⟨⟨⟨⟨?_, isPlain_of_mem_textMember⟩, ?_⟩, isPlain_of_mem_listMember chain⟩,
      isPlain_of_mem_textMember⟩
    · simp [Value.IsPlain.string]
    · simp [Value.IsPlain.string]

theorem isPlain_files (room : Nat) (files : List File) :
    (Value.array (files.map File.value)).IsPlain (room + 6) := by
  apply Value.IsPlain.array
  intro item listed
  obtain ⟨file, _, rfl⟩ := List.mem_map.mp listed
  exact File.isPlain_value room file

theorem Summary.isPlain_value {files : List File} (fits : files.length < UInt64.size) (room : Nat) :
    (Summary.of files).value.IsPlain (room + 1) := by
  have counted (status : Status) : count status files < UInt64.size :=
    Nat.lt_of_le_of_lt List.countP_le_length fits
  apply Value.IsPlain.object
  · simp
  · simp only [Summary.of, number, List.forall_mem_cons, List.not_mem_nil, false_imp_iff, implies_true,
      and_true]
    exact ⟨.natural fits, .natural (counted .valid), .natural (counted .invalid),
      .natural (counted .error)⟩

theorem isPlain_value {files : List File} (fits : files.length < UInt64.size) (room : Nat) :
    (value files).IsPlain (room + 7) := by
  apply Value.IsPlain.object
  · simp
  · simp only [List.forall_mem_cons, List.not_mem_nil, false_imp_iff, implies_true, and_true]
    exact ⟨isPlain_files room files, Summary.isPlain_value fits (room + 5)⟩

theorem exists_files_append (files : List File) :
    ∃ rest, Json.Number.Ends rest ∧ (json files).toList =
      '{' :: Json.lineBreak true 1 ++ Json.writeString "files" ++ Json.colon true ++
        (Json.write true 1 (.array (files.map File.value)) ++ rest) := by
  refine ⟨_, Json.ends_writeMembers true 1 [("summary", (Summary.of files).value)] 0 [], ?_⟩
  rw [json, Value.pretty, String.toList_ofList, value, Json.write]
  simp

theorem File.value_injective : Function.Injective File.value := by
  intro file other same
  have read := File.ofValue?_value file
  rw [same, File.ofValue?_value] at read
  exact (Option.some.inj read).symm

theorem eq_of_json_eq {files other : List File} (same : json files = json other) : files = other := by
  obtain ⟨rest, ends, whole⟩ := exists_files_append files
  obtain ⟨rest', ends', whole'⟩ := exists_files_append other
  rw [same, whole'] at whole
  -- The two texts go on alike behind the key, but it is the readers that tell where the files end.
  have texts := List.append_cancel_left whole
  have read := (isPlain_files 0 files).isReadBack true 1 rest ends
  rw [← texts, (isPlain_files 0 other).isReadBack true 1 rest' ends'] at read
  have values := (Value.array.inj (Prod.mk.inj (Except.ok.inj read)).1).symm
  exact List.map_injective_iff.mpr File.value_injective values

/-- A report can be read back in whole, and two different lists of files are never reported alike. A list
has less than 2⁶⁴ members, which is what the counts of the summary hold. -/
theorem json_lossless (files : List File) :
    (files.length < UInt64.size →
      ∃ value, Value.ofText (json files) = .ok value ∧ ofValue? value = some (files, Summary.of files)) ∧
    ∀ other, json files = json other → files = other := by
  refine ⟨fun fits => ?_, fun other same => eq_of_json_eq same⟩
  exact ⟨value files, (isPlain_value fits 120).ofText_write true, ofValue?_value files⟩

theorem json_lossless_quoted :
    let entry : Entry := ⟨"value", "value-invalid", "\"\\\u0001\t\x7b\"", [("é", ""), ("", "😀\n")]⟩
    let files : List File := [⟨"a.json", some .test, .invalid, [entry], none⟩, ⟨"b", none, .error, [], some "\x08"⟩]
    files.length < UInt64.size ∧
      ∃ value, Value.ofText (json files) = .ok value ∧ ofValue? value = some (files, ⟨2, 0, 1, 1⟩) := by
  intro entry files
  have fits : files.length < UInt64.size := by decide
  obtain ⟨value, parsed, read⟩ := (json_lossless files).1 fits
  exact ⟨fits, value, parsed, read⟩

end WebTestLint.Report
