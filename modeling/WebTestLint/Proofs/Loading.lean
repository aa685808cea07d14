import WebTestLint.Proofs.Diagnosis
import WebTestLint.Proofs.Spelled

/-!
Loading documents. The steps of a test and the elements of a page come in the order of their keys, each
once, and the first one of a wrong shape is the one that is reported.
-/

namespace WebTestLint

def Json.IsString (text : List Char) : Prop :=
  ∃ string rest, Json.readValue 0 text = .ok (.string string, rest)

theorem Json.IsString.expectString {room : Nat} {text rest : List Char} {value : Json.Value}
    (isString : Json.IsString text) (read : Json.readValue room text = .ok (value, rest)) :
    ∃ string, value = .string string ∧ Json.expectString text = .ok (string, rest) := by
  obtain ⟨string, rest', found⟩ := isString
  have expected := Json.expectString_of_readValue found
  obtain ⟨rfl, rfl⟩ := Prod.mk.inj
    (Except.ok.inj (read.symm.trans (Json.readValue_of_expectString expected room)))
  exact ⟨string, rfl, expected⟩

namespace Configuration

def textOf : Json.Value → String
  | .string text => text
  | _ => ""

def Draft.set (draft : Draft) (member : String × Json.Value) : Draft :=
  if member.1 = "browser" then { draft with browser? := some (textOf member.2) }
  else if member.1 = "url" then { draft with url? := some (textOf member.2) }
  else draft

def ofValue : Json.Value → Configuration
  | .object members =>
    ⟨(members.lookup "browser").elim "" textOf, (members.lookup "url").elim "" textOf⟩
  | _ => ⟨"", ""⟩

/-- An object of strings under `browser` and `url`, each at most once. -/
structure IsPlain (text : List Char) : Prop where
  keys : ∃ entries rest, Json.IsObject text entries rest ∧
    ∀ entry ∈ entries, entry.1 ∈ ["browser", "url"]
  holds : ∀ key ∈ ["browser", "url"], Json.HoldsOnce text key Json.IsString

theorem foldl_set (draft : Draft) (written : Json.Members) :
    written.foldl Draft.set draft =
      ⟨((written.reverse.lookup "browser").map textOf).or draft.browser?,
        ((written.reverse.lookup "url").map textOf).or draft.url?⟩ := by
  induction written generalizing draft with
  | nil => rfl
  | cons member written ih =>
      rw [List.foldl_cons, ih, List.reverse_cons, List.lookup_append, List.lookup_append,
        Option.map_or, Option.map_or, Option.or_assoc, Option.or_assoc]
      simp only [Keyed.lookup_cons, List.lookup_nil, Draft.set, eq_comm (b := member.1)]
      by_cases browser : member.1 = "browser"
      · simp [browser]
      · by_cases url : member.1 = "url"
        · simp [url]
        · simp [browser, url]

theorem isSet_set : ∀ field ∈ fields, ∀ (draft : Draft) (member : String × Json.Value),
    field.isSet (draft.set member) = (field.isSet draft || member.1 == field.key) := by
  intro field listed draft member
  rcases List.mem_pair.mp listed with rfl | rfl
  · by_cases browser : member.1 = "browser"
    · simp [Draft.set, browser]
    · by_cases url : member.1 = "url" <;> simp [Draft.set, browser, url]
  · by_cases browser : member.1 = "browser"
    · simp [Draft.set, browser]
    · by_cases url : member.1 = "url" <;> simp [Draft.set, browser, url]

theorem read_field {room : Nat} : ∀ field ∈ fields, ∀ (draft : Draft) (start : List Char)
    (value : Json.Value) (after : List Char), Json.IsString start →
      Json.readValue room start = .ok (value, after) →
        field.read draft start = .ok (draft.set (field.key, value), after) := by
  intro field listed draft start value after isString read
  obtain ⟨string, rfl, expected⟩ := isString.expectString read
  rcases List.mem_pair.mp listed with rfl | rfl
  · simp [expected, bind, Except.bind, pure, Except.pure, Draft.set, textOf]
  · simp [expected, bind, Except.bind, pure, Except.pure, Draft.set, textOf]

theorem read_of_isPlain {room : Nat} {text rest : List Char} {value : Json.Value} (plain : IsPlain text)
    (read : Json.readValue (room + 1) text = .ok (value, rest)) :
    Configuration.read text = .ok (ofValue value, rest) := by
  obtain ⟨entries, rest', object, keys⟩ := plain.keys
  have readable : ∀ entry ∈ entries, Json.Readable room entry.2 := by
    rintro ⟨key, start⟩ listed
    obtain ⟨string, after, found⟩ := (plain.holds key (keys _ listed) entries rest' object).2 start listed
    exact ⟨_, Json.readValue_of_expectString (Json.expectString_of_readValue found) room⟩
  obtain ⟨written, each⟩ := Json.exists_values readable
  obtain ⟨rfl, rfl⟩ := Prod.mk.inj (Except.ok.inj (read.symm.trans (object.readValue_collapse each)))
  have skipped : ∀ (draft : Draft) (key : String) (behind start : List Char) (value : Json.Value)
      (after : List Char), key ∉ fields.map Json.Field.key → Json.readColon behind = .ok start →
        Json.readValue room start = .ok (value, after) →
          Json.skipField draft key behind = .ok (draft.set (key, value), after) := by
    intro draft key behind start value after unlisted colon read
    have other : key ≠ "browser" ∧ key ≠ "url" := by simpa [fields] using unlisted
    rw [Json.skipField_of_readValue colon read, Draft.set, if_neg other.1, if_neg other.2]
  have holds : ∀ field ∈ fields, Json.HoldsOnce text field.key Json.IsString := by
    intro field listed
    exact plain.holds field.key (List.mem_map_of_mem listed)
  have unset : ∀ field ∈ fields, field.isSet ⟨none, none⟩ = false := by
    intro field listed
    rcases List.mem_pair.mp listed with rfl | rfl <;> rfl
  obtain ⟨body, opened, record⟩ := object.readMembers_field (fun _ => Json.IsString) (by decide)
    isSet_set read_field skipped each holds unset
  simp only [Configuration.read, Json.readRecord, opened, record, foldl_set, ofValue,
    Json.Members.lookup_collapse, List.lookup_nil, Option.or_none, Except.map]
  cases written.reverse.lookup "browser" <;> cases written.reverse.lookup "url" <;> rfl

end Configuration

namespace Test

def Draft.set (draft : Draft) (member : String × Json.Value) : Draft :=
  if member.1 = "config" then
    { draft with configuration? := some (Configuration.ofValue member.2) }
  else { draft with steps := draft.steps.set member.1 member.2 }

theorem foldl_set (draft : Draft) (written : Json.Members) :
    written.foldl Draft.set draft =
      ⟨((written.reverse.lookup "config").map Configuration.ofValue).or draft.configuration?,
        draft.steps.collapse (written.filter (·.1 ≠ "config"))⟩ := by
  induction written generalizing draft with
  | nil => rfl
  | cons member written ih =>
      rw [List.foldl_cons, ih, List.reverse_cons, List.lookup_append, Option.map_or, Option.or_assoc]
      simp only [Keyed.lookup_cons, List.lookup_nil, Draft.set, eq_comm (b := member.1)]
      by_cases config : member.1 = "config"
      · simp [config]
      · simp [config, Json.Members.collapse_cons]

theorem isSet_set : ∀ field ∈ fields, ∀ (draft : Draft) (member : String × Json.Value),
    field.isSet (draft.set member) = (field.isSet draft || member.1 == field.key) := by
  intro field listed draft member
  obtain rfl := List.mem_singleton.mp listed
  by_cases config : member.1 = "config" <;> simp [Draft.set, config]

theorem read_field : ∀ field ∈ fields, ∀ (draft : Draft) (start : List Char) (value : Json.Value)
    (after : List Char), Configuration.IsPlain start →
      Json.readValue (Json.depthLimit - 1) start = .ok (value, after) →
        field.read draft start = .ok (draft.set (field.key, value), after) := by
  intro field listed draft start value after plain found
  obtain rfl := List.mem_singleton.mp listed
  have read : Json.readValue (Json.depthLimit - 2 + 1) start = .ok (value, after) := found
  simp [Configuration.read_of_isPlain plain read, bind, Except.bind, pure, Except.pure, Draft.set]

theorem readStep_of_readValue (draft : Draft) (key : String) (behind start : List Char) (value : Json.Value)
    (after : List Char) (unlisted : key ∉ fields.map Json.Field.key)
    (colon : Json.readColon behind = .ok start)
    (found : Json.readValue (Json.depthLimit - 1) start = .ok (value, after)) :
    readStep draft key behind = .ok (draft.set (key, value), after) := by
  have other : key ≠ "config" := by simpa [fields] using unlisted
  simp only [readStep, Json.readMember_of_read colon found, bind, Except.bind, pure, Except.pure,
    Draft.set, if_neg other]

theorem finish_read {content : String} {members : Json.Members}
    (parsed : Json.Value.ofText content = .ok (.object members))
    (configured : Json.HoldsOnce content.toList "config" Configuration.IsPlain) :
    Json.finish (Test.read content.toList) =
      .ok ⟨(members.lookup "config").map Configuration.ofValue, members.filter (·.1 ≠ "config")⟩ := by
  obtain ⟨rest, read, blank⟩ := Json.finish_eq_ok_iff.mp parsed
  have opened : Json.readValue (Json.depthLimit - 1 + 1) content.toList = .ok (.object members, rest) := read
  obtain ⟨entries, written, object, each, rfl⟩ := Json.exists_written_of_readValue opened
  have holds : ∀ field ∈ fields, Json.HoldsOnce content.toList field.key Configuration.IsPlain := by
    intro field listed
    obtain rfl := List.mem_singleton.mp listed
    exact configured
  have unset : ∀ field ∈ fields, field.isSet ⟨none, []⟩ = false := by
    intro field listed
    obtain rfl := List.mem_singleton.mp listed
    rfl
  obtain ⟨body, opened, run⟩ := object.readMembers_field (fun _ => Configuration.IsPlain) (by decide)
    isSet_set read_field readStep_of_readValue each holds unset
  refine Json.finish_eq_ok_iff.mpr ⟨rest, ?_, blank⟩
  simp only [Test.read, opened, run, foldl_set, Json.Members.lookup_collapse, List.lookup_nil,
    Option.or_none, Json.Members.filter_collapse, List.filter_nil]

/-- What a test is made of: an object with a configuration under `config` and a step under each other
key, whose entries are named and told apart by their keys. -/
structure IsMadeOf (members : Json.Members) (test : Test) : Prop where
  configuration : test.configuration =
    (members.lookup "config").elim ⟨"", ""⟩ Configuration.ofValue
  steps : List.Forall₂ (fun member entry => entry.1 = member.1 ∧ Step.Spells member.2 entry.2)
    (members.filter (·.1 ≠ "config")) test.steps
  names : (test.steps.map Prod.fst).Nodup ∧ "config" ∉ test.steps.map Prod.fst
  data : ∀ entry ∈ test.steps, ∀ data, entry.2.data? = some data →
    (data.map DataSet.name).Nodup ∧ ∀ row ∈ data, (row.parameters.map Prod.fst).Nodup
  culprit : ∀ failure, test.check = .invalid failure → failure.link.reason = .testStepInvalid →
    ∃ name step cause,
      failure = .caused ⟨.test test, .test, .testStepInvalid, [("step-name", .text name)]⟩ cause ∧
      (name, step) ∈ test.steps ∧ step.check = .invalid cause ∧
      ∀ other, (name, other) ∈ test.steps → other = step

theorem isMadeOf_of_forall₂ {members : Json.Members} {steps : List (String × Step)}
    (distinct : (Json.Value.object members).IsDistinct)
    (each : List.Forall₂ (fun member entry => entry.1 = member.1 ∧ Step.Spells member.2 entry.2)
      (members.filter (·.1 ≠ "config")) steps) :
    IsMadeOf members
      ⟨(members.lookup "config").elim ⟨"", ""⟩ Configuration.ofValue, steps⟩ := by
  cases distinct with
  | object nodup values =>
      have keys : steps.map Prod.fst = (members.filter (·.1 ≠ "config")).map Prod.fst := by
        rw [← List.forall₂_eq_eq_eq, List.forall₂_map_left_iff, List.forall₂_map_right_iff]
        exact each.flip.imp fun _ _ spelled => spelled.1
      have names : (steps.map Prod.fst).Nodup := by
        rw [keys]
        exact nodup.sublist (List.filter_sublist.map Prod.fst)
      refine ⟨rfl, each, ⟨names, ?_⟩, ?_, ?_⟩
      · rw [keys]
        simp
      · intro entry listed data present
        obtain ⟨member, listed, _, spelled⟩ := exists_of_forall₂ each listed
        exact spelled.distinct (values member (List.mem_of_mem_filter listed)) present
      · intro failure failed reason
        cases reports_of_check failed with
        | configuration refused _ => simp [Failure.link] at reason
        | noSteps _ => simp [Failure.link] at reason
        | @step name step cause listed refused _ =>
            refine ⟨name, step, cause, rfl, listed, refused, ?_⟩
            intro other listed'
            exact congrArg Prod.snd (List.inj_on_of_nodup_map names listed' listed rfl)

theorem mapM_ofMember_eq_ok_iff {members : Json.Members}
    (distinct : ∀ member ∈ members, member.2.IsDistinct) (steps : List (String × Step)) :
    members.mapM Step.ofMember = .ok steps ↔
      List.Forall₂ (fun member entry => entry.1 = member.1 ∧ Step.Spells member.2 entry.2)
        members steps := by
  rw [mapM_eq_ok_iff]
  constructor
  · intro read
    induction read with
    | nil => exact .nil
    | cons first _ ih =>
        obtain ⟨distinctFirst, distinctOthers⟩ := List.forall_mem_cons.mp distinct
        exact .cons ((Step.ofMember_eq_ok_iff _ distinctFirst _).mp first) (ih distinctOthers)
  · intro spelled
    induction spelled with
    | nil => exact .nil
    | cons first _ ih =>
        obtain ⟨distinctFirst, distinctOthers⟩ := List.forall_mem_cons.mp distinct
        exact .cons ((Step.ofMember_eq_ok_iff _ distinctFirst _).mpr first) (ih distinctOthers)

theorem load_eq {content : String} {members : Json.Members}
    (parsed : Json.Value.ofText content = .ok (.object members))
    (configured : Json.HoldsOnce content.toList "config" Configuration.IsPlain) :
    Test.load content =
      (((members.filter (·.1 ≠ "config")).mapM Step.ofMember).mapError .shape).map fun steps =>
        ⟨(members.lookup "config").elim ⟨"", ""⟩ Configuration.ofValue, steps⟩ := by
  rw [Test.load, finish_read parsed configured]
  dsimp only [Except.mapError, bind, Except.bind]
  cases (members.filter (·.1 ≠ "config")).mapM Step.ofMember with
  | error fault => rfl
  | ok steps => cases members.lookup "config" <;> rfl

section Load

variable {content : String} {members : Json.Members}
  (parsed : Json.Value.ofText content = .ok (.object members))
  (configured : Json.HoldsOnce content.toList "config" Configuration.IsPlain)

include parsed configured

theorem exists_load_iff :
    (∃ test, Test.load content = .ok test) ↔
      ∀ member ∈ members.filter (·.1 ≠ "config"), Step.IsShaped member.2 := by
  have loaded : (∃ test, Test.load content = .ok test) ↔
      ∃ steps, (members.filter (·.1 ≠ "config")).mapM Step.ofMember = .ok steps := by
    rw [load_eq parsed configured]
    simp [map_eq_ok_iff, mapError_eq_ok_iff]
  rw [loaded, exists_mapM_eq_ok_iff]
  refine forall₂_congr fun member listed => ?_
  have distinct := Json.isDistinct_of_mem parsed (List.mem_of_mem_filter listed)
  rw [Step.exists_ofMember_iff distinct]

theorem isMadeOf_of_load {test : Test} (loaded : Test.load content = .ok test) :
    test.IsMadeOf members := by
  rw [load_eq parsed configured] at loaded
  obtain ⟨steps, read, rfl⟩ := map_eq_ok_iff.mp loaded
  have distinct : ∀ member ∈ members.filter (·.1 ≠ "config"), member.2.IsDistinct := fun member listed =>
    Json.isDistinct_of_mem parsed (List.mem_of_mem_filter listed)
  exact isMadeOf_of_forall₂ (Json.isDistinct_of_ofText parsed)
    ((mapM_ofMember_eq_ok_iff distinct steps).mp (mapError_eq_ok_iff.mp read))

theorem load_of_not_isShaped {before after : Json.Members} {member : String × Json.Value}
    (split : members.filter (·.1 ≠ "config") = before ++ member :: after)
    (passed : ∀ other ∈ before, Step.IsShaped other.2) (failed : ¬ Step.IsShaped member.2) :
    ∃ fault, Test.load content = .error (.shape fault) ∧ fault.Names member.1 := by
  have distinct : ∀ other ∈ before ++ member :: after, other.2.IsDistinct := by
    intro other listed
    rw [← split] at listed
    exact Json.isDistinct_of_mem parsed (List.mem_of_mem_filter listed)
  obtain ⟨distinctBefore, distinctRest⟩ := List.forall_mem_append.mp distinct
  have distinctMember := distinctRest member List.mem_cons_self
  cases read : Step.ofMember member with
  | ok entry => exact absurd ((Step.exists_ofMember_iff distinctMember).mp ⟨entry, read⟩) failed
  | error fault =>
      have first : (members.filter (·.1 ≠ "config")).mapM Step.ofMember = .error fault := by
        refine (mapM_eq_error_iff _ _ _).mpr ⟨before, member, after, split, ?_, read⟩
        exact fun other listed =>
          (Step.exists_ofMember_iff (distinctBefore other listed)).mpr (passed other listed)
      refine ⟨fault, ?_, ShapeFault.names_of_step? (Step.step?_of_ofMember read)⟩
      rw [load_eq parsed configured, first]
      rfl

end Load

end Test

def Json.IsMap (text : List Char) : Prop :=
  ∃ members rest, Json.readValue (Json.depthLimit - 1) text = .ok (.object members, rest)

namespace Page

def membersOf : Json.Value → Json.Members
  | .object members => members
  | _ => []

def Draft.set (draft : Draft) (member : String × Json.Value) : Draft :=
  if member.1 = "url" then { draft with url? := some (Configuration.textOf member.2) }
  else if member.1 = "elements" then { draft with elements? := some (membersOf member.2) }
  else draft

theorem foldl_set (draft : Draft) (written : Json.Members) :
    written.foldl Draft.set draft =
      ⟨((written.reverse.lookup "url").map Configuration.textOf).or draft.url?,
        ((written.reverse.lookup "elements").map membersOf).or draft.elements?⟩ := by
  induction written generalizing draft with
  | nil => rfl
  | cons member written ih =>
      rw [List.foldl_cons, ih, List.reverse_cons, List.lookup_append, List.lookup_append,
        Option.map_or, Option.map_or, Option.or_assoc, Option.or_assoc]
      simp only [Keyed.lookup_cons, List.lookup_nil, Draft.set, eq_comm (b := member.1)]
      by_cases url : member.1 = "url"
      · simp [url]
      · by_cases elements : member.1 = "elements"
        · simp [elements]
        · simp [url, elements]

theorem isSet_set : ∀ field ∈ fields, ∀ (draft : Draft) (member : String × Json.Value),
    field.isSet (draft.set member) = (field.isSet draft || member.1 == field.key) := by
  intro field listed draft member
  rcases List.mem_pair.mp listed with rfl | rfl
  · by_cases url : member.1 = "url"
    · simp [Draft.set, url]
    · by_cases elements : member.1 = "elements" <;> simp [Draft.set, url, elements]
  · by_cases url : member.1 = "url"
    · simp [Draft.set, url]
    · by_cases elements : member.1 = "elements" <;> simp [Draft.set, url, elements]

def Admits (key : String) : List Char → Prop := if key = "url" then Json.IsString else Json.IsMap

theorem read_field : ∀ field ∈ fields, ∀ (draft : Draft) (start : List Char) (value : Json.Value)
    (after : List Char), Admits field.key start →
      Json.readValue (Json.depthLimit - 1) start = .ok (value, after) →
        field.read draft start = .ok (draft.set (field.key, value), after) := by
  intro field listed draft start value after admitted found
  rcases List.mem_pair.mp listed with rfl | rfl
  · have isString : Json.IsString start := admitted
    obtain ⟨string, rfl, expected⟩ := isString.expectString found
    simp [expected, bind, Except.bind, pure, Except.pure, Draft.set, Configuration.textOf]
  · obtain ⟨inner, after', found'⟩ : Json.IsMap start := admitted
    obtain ⟨rfl, rfl⟩ := Prod.mk.inj (Except.ok.inj (found.symm.trans found'))
    have read : Json.readValue (Json.depthLimit - 2 + 1) start = .ok (.object inner, after) := found
    simp [Json.expectMap_of_readValue read, bind, Except.bind, pure, Except.pure, Draft.set, membersOf]

theorem skipField_of_readValue (draft : Draft) (key : String) (behind start : List Char)
    (value : Json.Value) (after : List Char) (unlisted : key ∉ fields.map Json.Field.key)
    (colon : Json.readColon behind = .ok start)
    (found : Json.readValue (Json.depthLimit - 1) start = .ok (value, after)) :
    Json.skipField draft key behind = .ok (draft.set (key, value), after) := by
  have other : key ≠ "url" ∧ key ≠ "elements" := by simpa [fields] using unlisted
  rw [Json.skipField_of_readValue colon found, Draft.set, if_neg other.1, if_neg other.2]

theorem finish_read {content : String} {members : Json.Members}
    (parsed : Json.Value.ofText content = .ok (.object members))
    (url : Json.HoldsOnce content.toList "url" Json.IsString)
    (elements : Json.HoldsOnce content.toList "elements" Json.IsMap) :
    Json.finish (Json.readRecord "struct PageDocument" fields ⟨none, none⟩ content.toList) =
      .ok ⟨(members.lookup "url").map Configuration.textOf,
        (members.lookup "elements").map membersOf⟩ := by
  obtain ⟨rest, read, blank⟩ := Json.finish_eq_ok_iff.mp parsed
  have opened : Json.readValue (Json.depthLimit - 1 + 1) content.toList = .ok (.object members, rest) := read
  obtain ⟨entries, written, object, each, rfl⟩ := Json.exists_written_of_readValue opened
  have holds : ∀ field ∈ fields, Json.HoldsOnce content.toList field.key (Admits field.key) := by
    intro field listed
    rcases List.mem_pair.mp listed with rfl | rfl
    · exact url
    · exact elements
  have unset : ∀ field ∈ fields, field.isSet ⟨none, none⟩ = false := by
    intro field listed
    rcases List.mem_pair.mp listed with rfl | rfl <;> rfl
  obtain ⟨body, opened, run⟩ := object.readMembers_field Admits (by decide) isSet_set read_field
    skipField_of_readValue each holds unset
  refine Json.finish_eq_ok_iff.mpr ⟨rest, ?_, blank⟩
  simp only [Json.readRecord, opened, run, foldl_set, Json.Members.lookup_collapse, List.lookup_nil,
    Option.or_none]

def elementsOf (members : Json.Members) : Json.Members := (members.lookup "elements").elim [] membersOf

theorem load_eq {content : String} {members : Json.Members} (importName : String)
    (parsed : Json.Value.ofText content = .ok (.object members))
    (url : Json.HoldsOnce content.toList "url" Json.IsString)
    (elements : Json.HoldsOnce content.toList "elements" Json.IsMap) :
    Page.load content importName =
      (((elementsOf members).mapM identifierOf).mapError .shape).map fun identifiers =>
        ⟨importName, (members.lookup "url").elim "" Configuration.textOf, identifiers⟩ := by
  rw [Page.load, finish_read parsed url elements, elementsOf]
  dsimp only [Except.mapError, bind, Except.bind]
  have named : ((members.lookup "url").map Configuration.textOf).getD "" =
      (members.lookup "url").elim "" Configuration.textOf := by
    cases members.lookup "url" <;> rfl
  have held : ((members.lookup "elements").map membersOf).getD [] =
      (members.lookup "elements").elim [] membersOf := by
    cases members.lookup "elements" <;> rfl
  rw [named, held]
  cases ((members.lookup "elements").elim [] membersOf).mapM identifierOf <;> rfl

theorem identifierOf_eq_ok_iff (element : String × Json.Value) (named : String × String) :
    identifierOf element = .ok named ↔ element = (named.1, .string named.2) := by
  obtain ⟨name, value⟩ := element
  obtain ⟨name', identifier⟩ := named
  cases value <;> simp [identifierOf]

theorem mapM_identifierOf_eq_ok_iff (elements : Json.Members) (identifiers : List (String × String)) :
    elements.mapM identifierOf = .ok identifiers ↔
      elements = identifiers.map fun named => (named.1, .string named.2) := by
  rw [mapM_eq_ok_iff, ← List.forall₂_eq_eq_eq, List.forall₂_map_right_iff]
  simp only [identifierOf_eq_ok_iff]

theorem exists_identifierOf_iff (element : String × Json.Value) :
    (∃ named, identifierOf element = .ok named) ↔ ∃ identifier, element.2 = .string identifier := by
  constructor
  · rintro ⟨named, read⟩
    exact ⟨named.2, congrArg Prod.snd ((identifierOf_eq_ok_iff element named).mp read)⟩
  · rintro ⟨identifier, same⟩
    exact ⟨(element.1, identifier), (identifierOf_eq_ok_iff _ _).mpr (Prod.ext rfl same)⟩

theorem identifierOf_of_ne_string {element : String × Json.Value}
    (other : ∀ identifier, element.2 ≠ .string identifier) :
    identifierOf element = .error (.elementNotString element.1) := by
  obtain ⟨name, value⟩ := element
  cases value with
  | string identifier => exact absurd rfl (other identifier)
  | _ => rfl

section Load

variable {content : String} {members : Json.Members} (importName : String)
  (parsed : Json.Value.ofText content = .ok (.object members))
  (url : Json.HoldsOnce content.toList "url" Json.IsString)
  (elements : Json.HoldsOnce content.toList "elements" Json.IsMap)

theorem nodup_elementsOf (distinct : (Json.Value.object members).IsDistinct) :
    ((elementsOf members).map Prod.fst).Nodup := by
  cases distinct with
  | object _ each =>
      cases found : members.lookup "elements" with
      | none => simp [elementsOf, found]
      | some value =>
          have inner := each _ (Step.mem_of_lookup found)
          rw [elementsOf, found]
          cases inner with
          | object keys _ => exact keys
          | _ => simp [membersOf]

include parsed url elements

theorem exists_load_iff :
    (∃ page, Page.load content importName = .ok page) ↔
      ∀ element ∈ elementsOf members, ∃ identifier, element.2 = .string identifier := by
  have loaded : (∃ page, Page.load content importName = .ok page) ↔
      ∃ identifiers, (elementsOf members).mapM identifierOf = .ok identifiers := by
    rw [load_eq importName parsed url elements]
    simp [map_eq_ok_iff, mapError_eq_ok_iff]
  rw [loaded, exists_mapM_eq_ok_iff]
  exact forall₂_congr fun element _ => exists_identifierOf_iff element

theorem of_load {page : Page} (loaded : Page.load content importName = .ok page) :
    elementsOf members = page.identifiers.map (fun named => (named.1, .string named.2)) ∧
      (page.identifiers.map Prod.fst).Nodup ∧ page.importName = importName ∧
      page.url = (members.lookup "url").elim "" Configuration.textOf := by
  rw [load_eq importName parsed url elements] at loaded
  obtain ⟨identifiers, read, rfl⟩ := map_eq_ok_iff.mp loaded
  have same := (mapM_identifierOf_eq_ok_iff _ _).mp (mapError_eq_ok_iff.mp read)
  have nodup := nodup_elementsOf (Json.isDistinct_of_ofText parsed)
  rw [same, List.map_map] at nodup
  exact ⟨same, nodup, rfl, rfl⟩

theorem load_of_ne_string {before after : Json.Members} {element : String × Json.Value}
    (split : elementsOf members = before ++ element :: after)
    (passed : ∀ other ∈ before, ∃ identifier, other.2 = .string identifier)
    (failed : ∀ identifier, element.2 ≠ .string identifier) :
    Page.load content importName = .error (.shape (.elementNotString element.1)) := by
  have first : (elementsOf members).mapM identifierOf = .error (.elementNotString element.1) := by
    refine (mapM_eq_error_iff _ _ _).mpr ⟨before, element, after, split, ?_, identifierOf_of_ne_string failed⟩
    exact fun other listed => (exists_identifierOf_iff other).mpr (passed other listed)
  rw [load_eq importName parsed url elements, first]
  rfl

end Load

end Page

namespace Document

open Json (IsObject HoldsOnce IsString IsMap nextKey skipValue)

/-- Steps and elements are loaded in the order of their keys, and the first of a wrong shape is reported. -/
theorem load_keeps_order :
    (∀ (content : String) (members : Json.Members),
      Json.Value.ofText content = .ok (.object members) →
      HoldsOnce content.toList "config" Configuration.IsPlain →
        members.IsReadFrom (Json.depthLimit - 1) content.toList ∧
        ((∃ test, Test.load content = .ok test) ↔
          ∀ member ∈ members.filter (·.1 ≠ "config"), Step.IsShaped member.2) ∧
        (∀ test, Test.load content = .ok test → test.IsMadeOf members) ∧
        ∀ before member after, members.filter (·.1 ≠ "config") = before ++ member :: after →
          (∀ other ∈ before, Step.IsShaped other.2) → ¬ Step.IsShaped member.2 →
            ∃ fault, Test.load content = .error (.shape fault) ∧ fault.Names member.1) ∧
    ∀ (content importName : String) (members : Json.Members),
      Json.Value.ofText content = .ok (.object members) →
      HoldsOnce content.toList "url" IsString → HoldsOnce content.toList "elements" IsMap →
        members.IsReadFrom (Json.depthLimit - 1) content.toList ∧
        ((∃ page, Page.load content importName = .ok page) ↔
          ∀ element ∈ Page.elementsOf members, ∃ identifier, element.2 = .string identifier) ∧
        (∀ page, Page.load content importName = .ok page →
          Page.elementsOf members = page.identifiers.map (fun entry => (entry.1, .string entry.2)) ∧
          (page.identifiers.map Prod.fst).Nodup ∧ page.importName = importName ∧
          page.url = (members.lookup "url").elim "" Configuration.textOf) ∧
        ∀ before element after, Page.elementsOf members = before ++ element :: after →
          (∀ other ∈ before, ∃ identifier, other.2 = .string identifier) →
          (∀ identifier, element.2 ≠ .string identifier) →
            Page.load content importName = .error (.shape (.elementNotString element.1)) := by
  constructor
  · intro content members parsed configured
    exact ⟨Json.isReadFrom_of_ofText parsed, Test.exists_load_iff parsed configured,
      fun test => Test.isMadeOf_of_load parsed configured,
      fun _ _ _ => Test.load_of_not_isShaped parsed configured⟩
  · intro content importName members parsed url elements
    exact ⟨Json.isReadFrom_of_ofText parsed, Page.exists_load_iff importName parsed url elements,
      fun page => Page.of_load importName parsed url elements,
      fun _ _ _ => Page.load_of_ne_string importName parsed url elements⟩

def crossedDocument : String :=
  "\x7b\"open\":1,\"config\":\x7b\"url\":\"/\"\x7d,\"elements\":\x7b\"form\":\"\",\"actions\":7\x7d,\"open\":\x7b\x7d\x7d"

theorem load_keeps_order_crossed :
    (∃ fault, Test.load crossedDocument = .error (.shape fault) ∧ fault.Names "elements") ∧
      Page.load crossedDocument "menu" = .error (.shape (.elementNotString "actions")) := by
  have map : Json.readValue (Json.depthLimit - 1)
      ("\x7b\"form\":\"\",\"actions\":7\x7d".toList ++ ",\"open\":\x7b\x7d\x7d".toList) =
        .ok (.object [("form", .string ""), ("actions", .number (.natural 7))],
          ",\"open\":\x7b\x7d\x7d".toList) := by
    cbv
  let last := ",\"open\":\x7b\x7d\x7d".toList
  let elements := "\x7b\"form\":\"\",\"actions\":7\x7d".toList ++ last
  let behind := ",\"elements\":".toList ++ elements
  let url := "\"/\"\x7d".toList ++ behind
  let config := "\x7b\"url\":".toList ++ url
  let opened := "1,\"config\":".toList ++ config
  have parsed : Json.Value.ofText crossedDocument = .ok (.object [("open", .object []),
      ("config", .object [("url", .string "/")]),
      ("elements", .object [("form", .string ""), ("actions", .number (.natural 7))])]) := by
    cbv
  have whole : IsObject crossedDocument.toList [("open", opened), ("config", config),
      ("elements", elements), ("open", "\x7b\x7d\x7d".toList)] [] := by
    have first : nextKey true (crossedDocument.toList.drop 1) = .ok (some ("open", ':' :: opened)) := by
      decide +kernel
    have second : nextKey false (",\"config\":".toList ++ config) = .ok (some ("config", ':' :: config)) := by
      decide +kernel
    have third : nextKey false behind = .ok (some ("elements", ':' :: elements)) := by decide +kernel
    have fourth : nextKey false last = .ok (some ("open", ":\x7b\x7d\x7d".toList)) := by decide +kernel
    have ended : nextKey false ['}'] = .ok none := by decide +kernel
    have number : skipValue opened = .ok (",\"config\":".toList ++ config) := by decide +kernel
    have object : skipValue config = .ok behind := by decide +kernel
    have object' : skipValue elements = .ok last := by decide +kernel
    have empty : skipValue "\x7b\x7d\x7d".toList = .ok ['}'] := by decide +kernel
    exact ⟨_, by decide +kernel, .cons first rfl number (.cons second rfl object
      (.cons third rfl object' (.cons fourth rfl empty (.nil ended))))⟩
  have inner : IsObject config [("url", url)] behind := by
    have first : nextKey true (config.drop 1) = .ok (some ("url", ':' :: url)) := by decide +kernel
    have ended : nextKey false ('}' :: behind) = .ok none := by decide +kernel
    have string : skipValue url = .ok ('}' :: behind) := by decide +kernel
    exact ⟨_, by decide +kernel, .cons first rfl string (.nil ended)⟩
  have configured : HoldsOnce crossedDocument.toList "config" Configuration.IsPlain := by
    intro entries rest object
    obtain rfl := whole.eq object
    refine ⟨by decide, ?_⟩
    intro start listed
    obtain rfl : start = config := by simpa using listed
    refine ⟨⟨_, _, inner, by simp⟩, ?_⟩
    intro key _ entries rest object
    obtain rfl := inner.eq object
    refine ⟨List.count_le_length, ?_⟩
    intro start listed
    obtain ⟨_, rfl⟩ : key = "url" ∧ start = url := by simpa using listed
    exact ⟨"/", '}' :: behind, by cbv⟩
  have unnamed : HoldsOnce crossedDocument.toList "url" IsString := by
    intro entries rest object
    obtain rfl := whole.eq object
    exact ⟨by decide, by simp⟩
  have listed : HoldsOnce crossedDocument.toList "elements" IsMap := by
    intro entries rest object
    obtain rfl := whole.eq object
    refine ⟨by decide, ?_⟩
    intro start listed
    obtain rfl : start = elements := by simpa using listed
    exact ⟨[("form", .string ""), ("actions", .number (.natural 7))], last, map⟩
  constructor
  · have reports := (load_keeps_order.1 _ _ parsed configured).2.2.2 [("open", .object [])]
      ("elements", .object [("form", .string ""), ("actions", .number (.natural 7))]) []
    have split : ([("open", .object []), ("config", .object [("url", .string "/")]),
        ("elements", .object [("form", .string ""), ("actions", .number (.natural 7))])] :
          Json.Members).filter (·.1 ≠ "config") = [("open", .object [])] ++
        ("elements", .object [("form", .string ""), ("actions", .number (.natural 7))]) :: [] := by
      simp
    refine reports split ?_ ?_
    · intro other listed
      obtain rfl := List.mem_singleton.mp listed
      exact ⟨[], rfl, by simp, by simp⟩
    · rintro ⟨members, same, lines, _⟩
      obtain rfl := Json.Value.object.inj same
      obtain ⟨_, array⟩ := lines "actions" (by simp) (.number (.natural 7)) rfl
      simp at array
  · have reports := (load_keeps_order.2 _ "menu" _ parsed unnamed listed).2.2.2 [("form", .string "")]
      ("actions", .number (.natural 7)) []
    have split : Page.elementsOf [("open", .object []), ("config", .object [("url", .string "/")]),
        ("elements", .object [("form", .string ""), ("actions", .number (.natural 7))])] =
          [("form", .string "")] ++ ("actions", .number (.natural 7)) :: [] := by
      rfl
    refine reports split ?_ ?_
    · intro other listed
      obtain rfl := List.mem_singleton.mp listed
      exact ⟨"", rfl⟩
    · simp

end Document

end WebTestLint
