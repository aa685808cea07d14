import WebTestLint.Proofs.Members
import WebTestLint.Proofs.Outcome

/-!
The steps that objects spell out. A step is built from the members of an object if they are of the right
shapes, and a fault names the step that it is found in.
-/

namespace WebTestLint

namespace Step

inductive Lists : Option Json.Value → List String → Prop
  | absent : Lists none []
  | present (lines : List String) : Lists (some (.array (lines.map .string))) lines

/-- The rows that stand under a key. There is no data if the key is left out or has no value. -/
inductive HasRows : Option Json.Value → Option (List (String × Json.Members)) → Prop
  | absent : HasRows none none
  | null : HasRows (some .null) none
  | present (rows : List (String × Json.Members)) :
      HasRows (some (.object (rows.map fun row => (row.1, .object row.2)))) (some rows)

def rowOf (row : String × Json.Members) : DataSet :=
  ⟨row.1, row.2.map fun parameter => (parameter.1, Data.parameterText parameter.2)⟩

inductive Spells : Json.Value → Step → Prop
  | object {members : Json.Members} {actions assertions : List String}
      {rows? : Option (List (String × Json.Members))} :
      Lists (members.lookup "actions") actions → Lists (members.lookup "assertions") assertions →
      HasRows (members.lookup "data") rows? →
      Spells (.object members) ⟨actions.map Action.ofLine, assertions.map Assertion.ofLine,
        rows?.map fun rows => rows.map rowOf⟩

theorem linesOf_eq_ok_iff (value : Json.Value) (lines : List String) :
    linesOf value = .ok lines ↔ value = .array (lines.map .string) := by
  cases value with
  | array items =>
      rw [linesOf, mapM_eq_ok_iff, Json.Value.array.injEq, ← List.forall₂_eq_eq_eq,
        List.forall₂_map_right_iff]
      constructor
      · refine List.Forall₂.imp fun value line read => ?_
        cases value <;> simp_all
      · refine List.Forall₂.imp fun value line same => ?_
        rw [same]
  | _ => simp [linesOf]

def taken {α : Type} (read : Json.Value → Except Mismatch α) (left : α) (value? : Option Json.Value) :
    Except Mismatch α :=
  value?.elim (.ok left) read

theorem taken_cons {α : Type} (read : Json.Value → Except Mismatch α) (left final : α) (key : String)
    {member : String × Json.Value} {members : Json.Members} (fresh : member.1 ∉ members.map Prod.fst) :
    taken read left (List.lookup key (member :: members)) = .ok final ↔
      ∃ middle, taken read left (List.lookup key [member]) = .ok middle ∧
        taken read middle (members.lookup key) = .ok final := by
  rw [Keyed.lookup_cons, Keyed.lookup_cons]
  by_cases same : key = member.1
  · have missing : members.lookup key = none := by
      rw [List.lookup_eq_none_iff]
      rintro other listed
      rw [same]
      exact bne_iff_ne.mpr fun named => fresh (List.mem_map.mpr ⟨other, listed, named.symm⟩)
    simp [missing, if_pos same, taken]
  · simp [same, taken]

theorem add_eq_ok_iff (draft next : Draft) (member : String × Json.Value) :
    draft.add member = .ok next ↔
      taken linesOf draft.actions (List.lookup "actions" [member]) = .ok next.actions ∧
      taken linesOf draft.assertions (List.lookup "assertions" [member]) = .ok next.assertions ∧
      taken dataOf draft.data? (List.lookup "data" [member]) = .ok next.data? := by
  obtain ⟨key, value⟩ := member
  obtain ⟨actions, assertions, data?⟩ := draft
  obtain ⟨actions', assertions', data?'⟩ := next
  simp only [Draft.add, Keyed.lookup_cons, List.lookup_nil, eq_comm (b := key)]
  by_cases first : key = "actions"
  · simp [first, taken, bind_eq_ok_iff, pure, Except.pure]
  · by_cases second : key = "assertions"
    · simp [second, taken, bind_eq_ok_iff, pure, Except.pure, and_left_comm]
    · by_cases third : key = "data"
      · simpa [third, taken, bind_eq_ok_iff, pure, Except.pure] using and_rotate
      · simp [first, second, third, taken, pure, Except.pure]

theorem foldlM_add_eq_ok_iff {members : Json.Members} (distinct : (members.map Prod.fst).Nodup)
    (draft final : Draft) :
    members.foldlM Draft.add draft = .ok final ↔
      taken linesOf draft.actions (members.lookup "actions") = .ok final.actions ∧
      taken linesOf draft.assertions (members.lookup "assertions") = .ok final.assertions ∧
      taken dataOf draft.data? (members.lookup "data") = .ok final.data? := by
  induction members generalizing draft with
  | nil =>
      cases draft
      cases final
      simp [taken, pure, Except.pure]
  | cons member members ih =>
      obtain ⟨fresh, distinct⟩ := List.nodup_cons.mp distinct
      rw [List.foldlM_cons, bind_eq_ok_iff, taken_cons _ _ _ _ fresh, taken_cons _ _ _ _ fresh,
        taken_cons _ _ _ _ fresh]
      simp only [add_eq_ok_iff, ih distinct]
      constructor
      · rintro ⟨middle, ⟨actions, assertions, data⟩, actions', assertions', data'⟩
        exact ⟨⟨_, actions, actions'⟩, ⟨_, assertions, assertions'⟩, ⟨_, data, data'⟩⟩
      · rintro ⟨⟨first, actions, actions'⟩, ⟨second, assertions, assertions'⟩, third, data, data'⟩
        exact ⟨⟨first, second, third⟩, ⟨actions, assertions, data⟩, actions', assertions', data'⟩

theorem taken_linesOf_iff (value? : Option Json.Value) (lines : List String) :
    taken linesOf [] value? = .ok lines ↔ Lists value? lines := by
  constructor
  · intro read
    cases value? with
    | none =>
        obtain rfl := Except.ok.inj read
        exact .absent
    | some value =>
        rw [(linesOf_eq_ok_iff value lines).mp read]
        exact .present lines
  · intro lists
    cases lists with
    | absent => rfl
    | present lines => exact (linesOf_eq_ok_iff _ lines).mpr rfl

theorem mapM_ofRow_eq_ok_iff (name : String) (members : Json.Members) (data : Data) :
    members.mapM (Data.ofRow name) = .ok data ↔
      ∃ rows : List (String × Json.Members),
        members = rows.map (fun row => (row.1, .object row.2)) ∧ data = rows.map rowOf := by
  have each (member : String × Json.Value) (dataSet : DataSet) :
      Data.ofRow name member = .ok dataSet ↔
        ∃ parameters, member.2 = .object parameters ∧ dataSet = rowOf (member.1, parameters) := by
    obtain ⟨row, value⟩ := member
    cases value <;> simp [Data.ofRow, rowOf, eq_comm]
  rw [mapM_eq_ok_iff]
  constructor
  · intro read
    induction read with
    | nil => exact ⟨[], rfl, rfl⟩
    | cons first _ ih =>
        obtain ⟨parameters, object, rfl⟩ := (each _ _).mp first
        obtain ⟨rows, rfl, rfl⟩ := ih
        exact ⟨(_, parameters) :: rows, by rw [List.map_cons, ← object], rfl⟩
  · rintro ⟨rows, rfl, rfl⟩
    rw [List.forall₂_map_left_iff, List.forall₂_map_right_iff, List.forall₂_same]
    exact fun row _ => (each _ _).mpr ⟨row.2, rfl, rfl⟩

theorem ofDraft_eq_ok_iff (name : String) (draft : Draft) (step : Step) :
    ofDraft name draft = .ok step ↔ ∃ data?, draft.data?.mapM (·.mapM (Data.ofRow name)) = .ok data? ∧
      step = ⟨draft.actions.map Action.ofLine, draft.assertions.map Assertion.ofLine, data?⟩ := by
  simp only [ofDraft, bind_eq_ok_iff, pure, Except.pure, Except.ok.injEq, eq_comm (b := step)]

theorem hasRows_iff (name : String) (value? : Option Json.Value) (data? : Option Data) :
    (∃ members?, taken dataOf none value? = .ok members? ∧
        members?.mapM (·.mapM (Data.ofRow name)) = .ok data?) ↔
      ∃ rows?, HasRows value? rows? ∧ data? = rows?.map (·.map rowOf) := by
  constructor
  · rintro ⟨members?, read, found⟩
    cases value? with
    | none =>
        obtain rfl := Except.ok.inj read
        exact ⟨none, .absent, (Except.ok.inj found).symm⟩
    | some value =>
        cases value with
        | null =>
            obtain rfl := Except.ok.inj read
            exact ⟨none, .null, (Except.ok.inj found).symm⟩
        | object members =>
            obtain rfl := Except.ok.inj read
            obtain ⟨data, read, rfl⟩ := map_eq_ok_iff.mp found
            obtain ⟨rows, rfl, rfl⟩ := (mapM_ofRow_eq_ok_iff name members data).mp read
            exact ⟨some rows, .present rows, rfl⟩
        | _ => simp [taken, dataOf] at read
  · rintro ⟨rows?, rows, rfl⟩
    cases rows with
    | absent => exact ⟨none, rfl, rfl⟩
    | null => exact ⟨none, rfl, rfl⟩
    | present rows =>
        refine ⟨some (rows.map fun row => (row.1, .object row.2)), rfl, map_eq_ok_iff.mpr ?_⟩
        exact ⟨rows.map rowOf, (mapM_ofRow_eq_ok_iff name _ _).mpr ⟨rows, rfl, rfl⟩, rfl⟩

theorem ofMember_eq_ok_iff (name : String) {value : Json.Value} (distinct : value.IsDistinct)
    (entry : String × Step) :
    ofMember (name, value) = .ok entry ↔ entry.1 = name ∧ Spells value entry.2 := by
  constructor
  · intro read
    cases distinct with
    | @object members keys _ =>
        cases folded : members.foldlM Draft.add ⟨[], [], none⟩ with
        | error mismatch => simp [ofMember, folded] at read
        | ok draft =>
            simp only [ofMember, folded] at read
            obtain ⟨step, made, rfl⟩ := map_eq_ok_iff.mp read
            obtain ⟨data?, rows, rfl⟩ := (ofDraft_eq_ok_iff name draft step).mp made
            obtain ⟨actions, assertions, data⟩ := (foldlM_add_eq_ok_iff keys _ _).mp folded
            obtain ⟨rows?, hasRows, rfl⟩ := (hasRows_iff name _ _).mp ⟨_, data, rows⟩
            exact ⟨rfl, .object ((taken_linesOf_iff _ _).mp actions) ((taken_linesOf_iff _ _).mp assertions)
              hasRows⟩
    | _ => simp [ofMember] at read
  · obtain ⟨name', step⟩ := entry
    rintro ⟨rfl, spelled⟩
    cases spelled with
    | @object members actions assertions rows? hasActions hasAssertions hasRows =>
        cases distinct with
        | object keys _ =>
            obtain ⟨members?, data, rows⟩ := (hasRows_iff name' _ _).mpr ⟨rows?, hasRows, rfl⟩
            have folded := (foldlM_add_eq_ok_iff keys ⟨[], [], none⟩ ⟨actions, assertions, members?⟩).mpr
              ⟨(taken_linesOf_iff _ _).mpr hasActions, (taken_linesOf_iff _ _).mpr hasAssertions, data⟩
            have made := (ofDraft_eq_ok_iff name' ⟨actions, assertions, members?⟩ _).mpr ⟨_, rows, rfl⟩
            simp only [ofMember, folded, made]
            rfl

theorem mem_of_lookup {members : Json.Members} {key : String} {value : Json.Value}
    (found : members.lookup key = some value) : (key, value) ∈ members := by
  obtain ⟨before, after, rfl, _⟩ := List.lookup_eq_some_iff.mp found
  simp

theorem Spells.distinct {value : Json.Value} {step : Step} (spelled : Spells value step)
    (distinct : value.IsDistinct) {data : Data} (present : step.data? = some data) :
    (data.map DataSet.name).Nodup ∧ ∀ row ∈ data, (row.parameters.map Prod.fst).Nodup := by
  cases spelled with
  | @object members _ _ rows? _ _ hasRows =>
      obtain ⟨rows, rfl, rfl⟩ := Option.map_eq_some_iff.mp present
      generalize found : members.lookup "data" = value? at hasRows
      cases hasRows
      cases distinct with
      | object _ each =>
          have inner := each _ (mem_of_lookup found)
          cases inner with
          | object keys each' =>
              constructor
              · rw [List.map_map] at keys ⊢
                exact keys
              · intro row listed
                obtain ⟨⟨name, parameters⟩, found', rfl⟩ := List.mem_map.mp listed
                have parametersDistinct := each' _ (List.mem_map_of_mem found')
                cases parametersDistinct with
                | object keys _ =>
                    rw [rowOf, List.map_map]
                    exact keys

def IsShaped (value : Json.Value) : Prop :=
  ∃ members : Json.Members, value = .object members ∧
    (∀ key ∈ ["actions", "assertions"], ∀ found, members.lookup key = some found →
      ∃ lines : List String, found = .array (lines.map .string)) ∧
    ∀ found, members.lookup "data" = some found →
      found = .null ∨ ∃ rows : List (String × Json.Members),
        found = .object (rows.map fun row => (row.1, .object row.2))

theorem exists_lists_iff (value? : Option Json.Value) :
    (∃ lines, Lists value? lines) ↔
      ∀ found, value? = some found → ∃ lines : List String, found = .array (lines.map .string) := by
  constructor
  · rintro ⟨lines, lists⟩ found rfl
    cases lists
    exact ⟨lines, rfl⟩
  · intro present
    cases value? with
    | none => exact ⟨[], .absent⟩
    | some value =>
        obtain ⟨lines, rfl⟩ := present value rfl
        exact ⟨lines, .present lines⟩

theorem exists_hasRows_iff (value? : Option Json.Value) :
    (∃ rows?, HasRows value? rows?) ↔
      ∀ found, value? = some found → found = .null ∨ ∃ rows : List (String × Json.Members),
        found = .object (rows.map fun row => (row.1, .object row.2)) := by
  constructor
  · rintro ⟨rows?, hasRows⟩ found rfl
    cases hasRows with
    | null => exact Or.inl rfl
    | present rows => exact Or.inr ⟨rows, rfl⟩
  · intro present
    cases value? with
    | none => exact ⟨none, .absent⟩
    | some value =>
        rcases present value rfl with rfl | ⟨rows, rfl⟩
        · exact ⟨none, .null⟩
        · exact ⟨some rows, .present rows⟩

theorem isShaped_iff (value : Json.Value) : IsShaped value ↔ ∃ step, Spells value step := by
  constructor
  · rintro ⟨members, rfl, lines, rows⟩
    obtain ⟨_, actions⟩ := (exists_lists_iff _).mpr (lines "actions" (by simp))
    obtain ⟨_, assertions⟩ := (exists_lists_iff _).mpr (lines "assertions" (by simp))
    obtain ⟨_, hasRows⟩ := (exists_hasRows_iff _).mpr rows
    exact ⟨_, .object actions assertions hasRows⟩
  · rintro ⟨_, spelled⟩
    cases spelled with
    | @object members _ _ _ actions assertions hasRows =>
        refine ⟨members, rfl, ?_, (exists_hasRows_iff _).mp ⟨_, hasRows⟩⟩
        intro key listed
        rcases List.mem_pair.mp listed with rfl | rfl
        · exact (exists_lists_iff _).mp ⟨_, actions⟩
        · exact (exists_lists_iff _).mp ⟨_, assertions⟩

end Step

def ShapeFault.step? : ShapeFault → Option String
  | .stepNotObject step | .stepType step _ _ | .rowNotObject _ step => some step
  | .unknownKind | .elementNotString _ => none

structure ShapeFault.Names (fault : ShapeFault) (step : String) : Prop where
  about : fault.step? = some step
  told : ∃ before after, fault.message = before ++ "step \"" ++ step ++ "\"" ++ after

theorem ShapeFault.names_of_step? {fault : ShapeFault} {step : String}
    (found : fault.step? = some step) : fault.Names step := by
  refine ⟨found, ?_⟩
  cases fault with
  | stepNotObject name =>
      obtain rfl := Option.some.inj found
      exact ⟨"", " must be an object", by simp [message, String.append_assoc]⟩
  | stepType name actual expected =>
      obtain rfl := Option.some.inj found
      have closed : "\": " = "\"" ++ ": " := rfl
      exact ⟨"", ": " ++ (Json.Fault.Cause.invalidType actual expected).message,
        by rw [message, closed]; simp only [String.append_assoc, String.empty_append]⟩
  | rowNotObject row name =>
      obtain rfl := Option.some.inj found
      exact ⟨"data set \"" ++ row ++ "\" of ", " must be an object",
        by simp [message, String.append_assoc]⟩
  | unknownKind | elementNotString name => simp [step?] at found

namespace Step

theorem step?_of_ofDraft {name : String} {draft : Draft} {fault : ShapeFault}
    (failed : ofDraft name draft = .error fault) : fault.step? = some name := by
  obtain ⟨actions, assertions, data?⟩ := draft
  cases data? with
  | none => simp [ofDraft, bind, Except.bind, pure, Except.pure] at failed
  | some members =>
      have failedRows : members.mapM (Data.ofRow name) = .error fault := by
        cases rows : members.mapM (Data.ofRow name) with
        | ok data =>
            simp [ofDraft, rows, bind, Except.bind, pure, Except.pure, Option.mapM, Functor.map,
              Except.map] at failed
        | error other =>
            simpa [ofDraft, rows, bind, Except.bind, pure, Except.pure, Option.mapM, Functor.map,
              Except.map] using failed
      obtain ⟨_, ⟨row, value⟩, _, _, _, failedRow⟩ := (mapM_eq_error_iff _ _ _).mp failedRows
      cases value with
      | object parameters => simp [Data.ofRow] at failedRow
      | _ =>
          obtain rfl := Except.error.inj failedRow
          rfl

theorem step?_of_ofMember {name : String} {value : Json.Value} {fault : ShapeFault}
    (failed : ofMember (name, value) = .error fault) : fault.step? = some name := by
  cases value with
  | object members =>
      simp only [ofMember] at failed
      split at failed
      · rename_i draft _
        cases made : ofDraft name draft with
        | ok step => simp [made, Except.map] at failed
        | error other =>
            obtain rfl : other = fault := by simpa [made, Except.map] using failed
            exact step?_of_ofDraft made
      · obtain rfl := Except.error.inj failed
        rfl
  | _ =>
      obtain rfl := Except.error.inj failed
      rfl

theorem exists_ofMember_iff {member : String × Json.Value} (distinct : member.2.IsDistinct) :
    (∃ entry, ofMember member = .ok entry) ↔ IsShaped member.2 := by
  rw [isShaped_iff]
  constructor
  · rintro ⟨entry, read⟩
    exact ⟨entry.2, ((ofMember_eq_ok_iff member.1 distinct entry).mp read).2⟩
  · rintro ⟨step, spelled⟩
    exact ⟨(member.1, step), (ofMember_eq_ok_iff member.1 distinct _).mpr ⟨rfl, spelled⟩⟩

end Step

end WebTestLint
