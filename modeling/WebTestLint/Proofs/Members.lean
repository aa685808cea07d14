import Mathlib
import WebTestLint.Proofs.Detection
import WebTestLint.Proofs.Keyed

/-!
The members of an object, as they are written and as they are read. A repeated key keeps its first place
and takes its last value, so no object that is read holds a key twice.
-/

namespace WebTestLint.Json

namespace Members

theorem set_eq (members : Members) (key : String) (value : Value) :
    members.set key value = Keyed.set key value members := by
  induction members with
  | nil => rfl
  | cons member members ih => rw [set, Keyed.set, ih]

theorem keys_set (members : Members) (key : String) (value : Value) :
    (members.set key value).map Prod.fst =
      if key ∈ members.map Prod.fst then members.map Prod.fst else members.map Prod.fst ++ [key] := by
  rw [set_eq, Keyed.keys_set]

theorem lookup_set (members : Members) (key other : String) (value : Value) :
    (members.set key value).lookup other =
      if other = key then some value else members.lookup other := by
  rw [set_eq, Keyed.lookup_set]

theorem filter_set (members : Members) (key left : String) (value : Value) :
    (members.set key value).filter (·.1 ≠ left) =
      if key = left then members.filter (·.1 ≠ left)
      else Members.set key value (members.filter (·.1 ≠ left)) := by
  induction members with
  | nil => by_cases same : key = left <;> simp [set, same]
  | cons member members ih =>
      rw [set]
      split
      · rename_i found
        subst found
        by_cases same : member.1 = left <;> simp [same, set]
      · rename_i missed
        by_cases same : key = left
        · subst same
          simpa [missed] using ih
        · by_cases dropped : member.1 = left
          · simpa [dropped, same] using ih
          · simpa [dropped, same, set, missed] using ih

theorem mem_set {members : Members} {key : String} {value : Value} {member : String × Value}
    (found : member ∈ members.set key value) : member = (key, value) ∨ member ∈ members := by
  induction members with
  | nil => exact Or.inl (List.mem_singleton.mp found)
  | cons first members ih =>
      rw [set] at found
      split at found
      · rcases List.mem_cons.mp found with rfl | later
        · exact Or.inl rfl
        · exact Or.inr (List.mem_cons_of_mem _ later)
      · rcases List.mem_cons.mp found with rfl | later
        · exact Or.inr List.mem_cons_self
        · exact (ih later).imp_right (List.mem_cons_of_mem _)

/-- What members come to that are read in order behind others. -/
def collapse (front written : Members) : Members :=
  written.foldl (fun members member => members.set member.1 member.2) front

theorem collapse_cons (front : Members) (member : String × Value) (written : Members) :
    collapse front (member :: written) = collapse (front.set member.1 member.2) written := rfl

theorem keys_collapse (front written : Members) :
    (collapse front written).map Prod.fst =
      front.map Prod.fst ++
        ((written.map Prod.fst).filter (· ∉ front.map Prod.fst)).eraseDups := by
  induction written generalizing front with
  | nil => simp [collapse]
  | cons member written ih =>
      rw [collapse_cons, ih, keys_set, List.map_cons]
      split
      · rename_i present
        rw [List.filter_cons_of_neg (by simpa using present)]
      · rename_i fresh
        rw [List.filter_cons_of_pos (by simpa using fresh), List.eraseDups_cons, List.append_assoc,
          List.singleton_append, List.filter_filter]
        congr 4
        funext key
        rw [Bool.eq_iff_iff]
        simp [and_comm]

theorem lookup_collapse (front written : Members) (key : String) :
    (collapse front written).lookup key = (written.reverse.lookup key).or (front.lookup key) := by
  induction written generalizing front with
  | nil => rfl
  | cons member written ih =>
      rw [collapse_cons, ih, lookup_set, List.reverse_cons, List.lookup_append, Option.or_assoc]
      congr 1
      rw [Keyed.lookup_cons]
      by_cases same : key = member.1 <;> simp [same]

theorem filter_collapse (front written : Members) (left : String) :
    (collapse front written).filter (·.1 ≠ left) =
      collapse (front.filter (·.1 ≠ left)) (written.filter (·.1 ≠ left)) := by
  induction written generalizing front with
  | nil => rfl
  | cons member written ih =>
      rw [collapse_cons, ih, filter_set]
      by_cases dropped : member.1 = left
      · rw [if_pos dropped, List.filter_cons_of_neg (by simpa using dropped)]
      · rw [if_neg dropped, List.filter_cons_of_pos (by simpa using dropped), collapse_cons]

theorem nodup_keys_set {members : Members} (distinct : (members.map Prod.fst).Nodup) (key : String)
    (value : Value) : ((members.set key value).map Prod.fst).Nodup := by
  rw [keys_set]
  split
  · exact distinct
  · rename_i fresh
    refine List.nodup_append.mpr ⟨distinct, by simp, ?_⟩
    rintro other old last member rfl
    exact fresh (List.mem_singleton.mp member ▸ old)

end Members

inductive Value.IsDistinct : Value → Prop
  | null : IsDistinct .null
  | boolean (value : Bool) : IsDistinct (.boolean value)
  | number (number : Number) : IsDistinct (.number number)
  | string (text : String) : IsDistinct (.string text)
  | array {items : List Value} : (∀ item ∈ items, IsDistinct item) → IsDistinct (.array items)
  | object {members : Members} : (members.map Prod.fst).Nodup →
      (∀ member ∈ members, IsDistinct member.2) → IsDistinct (.object members)

theorem isDistinct_of_readScalar {text rest : List Char} {value : Value}
    (read : readScalar text = .ok (value, rest)) : value.IsDistinct := by
  unfold readScalar at read
  split at read
  · simp at read
  · rw [eq_of_readWord read]
    exact .null
  · rw [eq_of_readWord read]
    exact .boolean true
  · rw [eq_of_readWord read]
    exact .boolean false
  · obtain ⟨text, _, rfl⟩ := exists_of_map_eq_ok read
    exact .string text
  · obtain ⟨number, _, rfl⟩ := exists_of_map_eq_ok read
    exact .number number
  · split at read
    · obtain ⟨number, _, rfl⟩ := exists_of_map_eq_ok read
      exact .number number
    · simp at read

theorem forall_of_readItems {α : Type} {item : List Char → Reading α} {P : α → Prop}
    (each : ∀ text value rest, item text = .ok (value, rest) → P value) {fuel : Nat} {first : Bool}
    {text rest : List Char} {values : List α} (read : readItems item fuel first text = .ok (values, rest)) :
    ∀ value ∈ values, P value := by
  induction fuel generalizing first text values with
  | zero => simp [readItems] at read
  | succ fuel ih =>
      rw [readItems] at read
      obtain ⟨next, _, read⟩ := bind_eq_ok_iff.mp read
      cases next with
      | none =>
          obtain ⟨rfl, _⟩ := Prod.mk.inj (Except.ok.inj read)
          simp
      | some start =>
          obtain ⟨⟨value, after⟩, taken, read⟩ := bind_eq_ok_iff.mp read
          obtain ⟨⟨values', rest'⟩, others, same⟩ := bind_eq_ok_iff.mp read
          obtain ⟨rfl, rfl⟩ := Prod.mk.inj (Except.ok.inj same)
          exact List.forall_mem_cons.mpr ⟨each _ _ _ taken, ih others⟩

theorem invariant_of_readMembers {σ : Type} {member : σ → String → List Char → Reading σ} {P : σ → Prop}
    (kept : ∀ state key text next rest, P state → member state key text = .ok (next, rest) → P next)
    {fuel : Nat} {first : Bool} {state final : σ} {text rest : List Char} (start : P state)
    (read : readMembers member fuel first state text = .ok (final, rest)) : P final := by
  induction fuel generalizing first state text with
  | zero => simp [readMembers] at read
  | succ fuel ih =>
      rw [readMembers] at read
      obtain ⟨next, _, read⟩ := bind_eq_ok_iff.mp read
      cases next with
      | none =>
          obtain ⟨rfl, _⟩ := Prod.mk.inj (Except.ok.inj read)
          exact start
      | some named =>
          obtain ⟨⟨state', after⟩, taken, read⟩ := bind_eq_ok_iff.mp read
          exact ih (kept _ _ _ _ _ start taken) read

theorem isDistinct_of_readValue {room : Nat} {text rest : List Char} {value : Value}
    (read : readValue room text = .ok (value, rest)) : value.IsDistinct := by
  induction room using Nat.strongRecOn generalizing text rest value with
  | ind room ih =>
      rcases readValue_cases read with scalar | ⟨inner, rfl, ⟨body, items, _, rfl, inside⟩ |
        ⟨body, members, _, rfl, inside⟩⟩
      · exact isDistinct_of_readScalar scalar
      · exact .array (forall_of_readItems (fun _ _ _ => ih inner (Nat.lt_succ_self inner)) inside)
      · have distinct : (members.map Prod.fst).Nodup ∧ ∀ member ∈ members, member.2.IsDistinct := by
          refine invariant_of_readMembers (P := fun members : Members =>
            (members.map Prod.fst).Nodup ∧ ∀ member ∈ members, member.2.IsDistinct) ?_ (by simp) inside
          rintro front key text next rest ⟨nodup, each⟩ taken
          obtain ⟨start, _, taken⟩ := bind_eq_ok_iff.mp taken
          obtain ⟨⟨item, after⟩, read, same⟩ := bind_eq_ok_iff.mp taken
          obtain ⟨rfl, _⟩ := Prod.mk.inj (Except.ok.inj same)
          refine ⟨Members.nodup_keys_set nodup key item, ?_⟩
          intro member found
          rcases Members.mem_set found with rfl | old
          · exact ih inner (Nat.lt_succ_self inner) read
          · exact each member old
        exact .object distinct.1 distinct.2

def IsValueOf (room : Nat) (entry : String × List Char) (member : String × Value) : Prop :=
  entry.1 = member.1 ∧ ∃ rest, readValue room entry.2 = .ok (member.2, rest)

theorem exists_values {room : Nat} {entries : List (String × List Char)}
    (readable : ∀ entry ∈ entries, Readable room entry.2) :
    ∃ written, List.Forall₂ (IsValueOf room) entries written := by
  induction entries with
  | nil => exact ⟨[], .nil⟩
  | cons entry entries ih =>
      obtain ⟨⟨⟨value, rest⟩, read⟩, others⟩ := List.forall_mem_cons.mp readable
      obtain ⟨written, each⟩ := ih others
      exact ⟨(entry.1, value) :: written, .cons ⟨rfl, rest, read⟩ each⟩

theorem keys_eq {room : Nat} {entries : List (String × List Char)} {written : Members}
    (each : List.Forall₂ (IsValueOf room) entries written) :
    entries.map Prod.fst = written.map Prod.fst := by
  induction each with
  | nil => rfl
  | cons first _ ih => rw [List.map_cons, List.map_cons, first.1, ih]

theorem lookup_values {room : Nat} {entries : List (String × List Char)} {written : Members}
    (each : List.Forall₂ (IsValueOf room) entries written) (key : String) (value : Value) :
    written.lookup key = some value ↔
      ∃ start rest, entries.lookup key = some start ∧ readValue room start = .ok (value, rest) := by
  induction each with
  | nil => simp
  | @cons entry member entries written first _ ih =>
      obtain ⟨named, rest, read⟩ := first
      rw [Keyed.lookup_cons, List.lookup_cons, named]
      by_cases same : key = member.1
      · simp only [same, BEq.rfl, ↓reduceIte, Option.some.injEq, exists_and_left, exists_eq_left']
        constructor
        · rintro rfl
          exact ⟨rest, read⟩
        · rintro ⟨rest', read'⟩
          exact (Prod.mk.inj (Except.ok.inj (read.symm.trans read'))).1
      · simp only [same, beq_eq_false_iff_ne.mpr same, ↓reduceIte, ih]

section Members

variable {σ : Type} {member : σ → String → List Char → Reading σ}

inductive Runs (member : σ → String → List Char → Reading σ) :
    σ → List (String × List Char) → σ → Prop
  | nil {state : σ} : Runs member state [] state
  | cons {state next final : σ} {key : String} {start : List Char}
      {entries : List (String × List Char)} :
      (∀ behind after, readColon behind = .ok start → skipValue start = .ok after →
        member state key behind = .ok (next, after)) →
      Runs member next entries final → Runs member state ((key, start) :: entries) final

theorem Runs.readMembers {entries : List (String × List Char)} {state final : σ}
    (runs : Runs member state entries final) {first : Bool} {text rest : List Char}
    (written : WrittenMembers first text entries rest) {fuel : Nat} (enough : text.length < fuel) :
    readMembers member fuel first state text = .ok (final, rest) := by
  induction runs generalizing first text fuel with
  | nil =>
      obtain ⟨fuel, rfl, _⟩ := exists_eq_succ enough
      cases written with
      | nil ended => exact readMembers_end ended
  | cons taken _ ih =>
      obtain ⟨fuel, rfl, enough⟩ := exists_eq_succ enough
      cases written with
      | @cons _ _ _ behind _ after _ _ found colon skipped others =>
          have shorter := (skips_iff.mpr skipped).shorter
          have startLength := length_readColon colon
          have keyLength := length_of_nextKey found
          have enoughLeft : after.length < fuel := by omega
          rw [readMembers_next found (taken behind after colon skipped), ih others enoughLeft]

theorem runs_readMember {room : Nat} {entries : List (String × List Char)} {written : Members}
    (each : List.Forall₂ (IsValueOf room) entries written) (front : Members) :
    Runs (readMember (readValue room)) front entries (front.collapse written) := by
  induction each generalizing front with
  | nil => exact .nil
  | @cons entry member entries written first _ ih =>
      obtain ⟨named, rest, read⟩ := first
      refine .cons ?_ (ih (front.set member.1 member.2))
      intro behind after colon skipped
      obtain rfl := Except.ok.inj (skipped.symm.trans (steps_readValue room _ _ _ read))
      rw [readMember_of_read colon read, named]

end Members

theorem IsObject.readValue_collapse {room : Nat} {text rest : List Char}
    {entries : List (String × List Char)} {written : Members} (object : IsObject text entries rest)
    (each : List.Forall₂ (IsValueOf room) entries written) :
    readValue (room + 1) text = .ok (.object (Members.collapse [] written), rest) := by
  obtain ⟨body, opened, trace⟩ := object
  exact readValue_object opened
    ((runs_readMember each []).readMembers trace (Nat.lt_succ_self body.length))

/-- What repeated keys come to. The written values are those that stand in the text. -/
theorem exists_written_of_readValue {room : Nat} {text rest : List Char} {members : Members}
    (read : readValue (room + 1) text = .ok (.object members, rest)) :
    ∃ entries written, IsObject text entries rest ∧ List.Forall₂ (IsValueOf room) entries written ∧
      members = Members.collapse [] written := by
  obtain ⟨entries, object, readable, _⟩ := exists_isObject_of_readValue read
  obtain ⟨written, each⟩ := exists_values readable
  have same := (Prod.mk.inj (Except.ok.inj (read.symm.trans (object.readValue_collapse each)))).1
  exact ⟨entries, written, object, each, Value.object.inj same⟩

/-- The members that a text's object comes to: each key in its first place, with its last value. -/
def Members.IsReadFrom (members : Members) (room : Nat) (text : List Char) : Prop :=
  ∃ entries rest, IsObject text entries rest ∧
    members.map Prod.fst = (entries.map Prod.fst).eraseDups ∧
    ∀ key value, members.lookup key = some value ↔
      ∃ start rest, entries.reverse.lookup key = some start ∧ readValue room start = .ok (value, rest)

theorem isReadFrom_collapse {room : Nat} {text rest : List Char} {entries : List (String × List Char)}
    {written : Members} (object : IsObject text entries rest)
    (each : List.Forall₂ (IsValueOf room) entries written) :
    (Members.collapse [] written).IsReadFrom room text := by
  refine ⟨entries, rest, object, ?_, ?_⟩
  · rw [Members.keys_collapse, keys_eq each]
    simp
  · intro key value
    rw [Members.lookup_collapse, List.lookup_nil, Option.or_none]
    exact lookup_values (List.rel_reverse each) key value

section Record

variable {σ : Type} {fields : List (Field σ)}
  {other : σ → String → List Char → Except Fault (σ × List Char)} {apply : σ → String × Value → σ}
  {room : Nat}

theorem find?_field (distinct : (fields.map Field.key).Nodup) {field : Field σ}
    (listed : field ∈ fields) : fields.find? (·.key == field.key) = some field := by
  cases found : fields.find? (·.key == field.key) with
  | none => simpa using List.find?_eq_none.mp found field listed
  | some field' =>
      have same : field'.key = field.key := by simpa using List.find?_some found
      rw [List.inj_on_of_nodup_map distinct (List.mem_of_find?_eq_some found) listed same]

theorem readField_of_mem (distinct : (fields.map Field.key).Nodup) {field : Field σ}
    (listed : field ∈ fields) {state : σ} (unset : field.isSet state = false) {behind start : List Char}
    (colon : readColon behind = .ok start) :
    readField fields other state field.key behind = field.read state start := by
  simp only [readField, find?_field distinct listed, unset, Bool.false_eq_true, ↓reduceIte, colon, bind,
    Except.bind]

theorem readField_of_notMem {key : String} (unlisted : key ∉ fields.map Field.key) (state : σ)
    (behind : List Char) : readField fields other state key behind = other state key behind := by
  have missing : fields.find? (·.key == key) = none := by
    apply List.find?_eq_none.mpr
    intro field listed same
    exact unlisted (List.mem_map.mpr ⟨field, listed, by simpa using same⟩)
  simp only [readField, missing]

theorem runs_readField (distinct : (fields.map Field.key).Nodup)
    (sets : ∀ field ∈ fields, ∀ state member,
      field.isSet (apply state member) = (field.isSet state || member.1 == field.key))
    {admits : String → List Char → Prop}
    (known : ∀ field ∈ fields, ∀ state start value after, admits field.key start →
      readValue room start = .ok (value, after) →
        field.read state start = .ok (apply state (field.key, value), after))
    (unknown : ∀ state key behind start value after, key ∉ fields.map Field.key →
      readColon behind = .ok start → readValue room start = .ok (value, after) →
        other state key behind = .ok (apply state (key, value), after))
    {entries : List (String × List Char)} {written : Members}
    (each : List.Forall₂ (IsValueOf room) entries written)
    (admitted : ∀ entry ∈ entries, entry.1 ∈ fields.map Field.key → admits entry.1 entry.2) {state : σ}
    (once : ∀ field ∈ fields,
      (written.map Prod.fst).count field.key ≤ if field.isSet state then 0 else 1) :
    Runs (readField fields other) state entries (written.foldl apply state) := by
  induction each generalizing state with
  | nil => exact .nil
  | @cons entry member entries written first _ ih =>
      obtain ⟨named, rest, read⟩ := first
      obtain ⟨admittedFirst, admittedOthers⟩ := List.forall_mem_cons.mp admitted
      have onceOthers : ∀ field ∈ fields, (written.map Prod.fst).count field.key ≤
          if field.isSet (apply state member) then 0 else 1 := by
        intro field listed
        have counted := once field listed
        rw [List.map_cons, List.count_cons] at counted
        rw [sets field listed]
        by_cases same : member.1 = field.key
        · simp only [same, BEq.rfl, ↓reduceIte, Bool.or_true] at counted ⊢
          split at counted <;> omega
        · simpa [same] using counted
      refine .cons ?_ (ih admittedOthers onceOthers)
      intro behind after colon skipped
      obtain rfl := Except.ok.inj (skipped.symm.trans (steps_readValue room _ _ _ read))
      by_cases isField : entry.1 ∈ fields.map Field.key
      · obtain ⟨field, listed, same⟩ := List.mem_map.mp isField
        have unset : field.isSet state = false := by
          have counted := once field listed
          rw [List.map_cons, List.count_cons, ← named, ← same] at counted
          by_contra set
          simp [eq_true_of_ne_false set] at counted
        rw [← same, readField_of_mem distinct listed unset colon,
          known field listed state entry.2 member.2 after
            (same ▸ admittedFirst isField) read, same, named]
      · rw [readField_of_notMem isField, unknown state entry.1 behind entry.2 member.2 after isField colon
          read, named]

def HoldsOnce (text : List Char) (key : String) (admits : List Char → Prop) : Prop :=
  ∀ entries rest, IsObject text entries rest →
    (entries.map Prod.fst).count key ≤ 1 ∧ ∀ start, (key, start) ∈ entries → admits start

theorem IsObject.readMembers_field (admits : String → List Char → Prop)
    (distinct : (fields.map Field.key).Nodup)
    (sets : ∀ field ∈ fields, ∀ state member,
      field.isSet (apply state member) = (field.isSet state || member.1 == field.key))
    (known : ∀ field ∈ fields, ∀ state start value after, admits field.key start →
      readValue room start = .ok (value, after) →
        field.read state start = .ok (apply state (field.key, value), after))
    (unknown : ∀ state key behind start value after, key ∉ fields.map Field.key →
      readColon behind = .ok start → readValue room start = .ok (value, after) →
        other state key behind = .ok (apply state (key, value), after))
    {text rest : List Char} {entries : List (String × List Char)} {written : Members}
    (object : IsObject text entries rest) (each : List.Forall₂ (IsValueOf room) entries written)
    (holds : ∀ field ∈ fields, HoldsOnce text field.key (admits field.key)) {state : σ}
    (unset : ∀ field ∈ fields, field.isSet state = false) :
    ∃ body, skipSpace text = '{' :: body ∧
      readMembers (readField fields other) (body.length + 1) true state body =
        .ok (written.foldl apply state, rest) := by
  have admitted : ∀ entry ∈ entries, entry.1 ∈ fields.map Field.key → admits entry.1 entry.2 := by
    rintro ⟨key, start⟩ listed isField
    obtain ⟨field, found, rfl⟩ := List.mem_map.mp isField
    exact (holds field found entries rest object).2 start listed
  have once : ∀ field ∈ fields,
      (written.map Prod.fst).count field.key ≤ if field.isSet state then 0 else 1 := by
    intro field found
    rw [if_neg (by simp [unset field found]), ← keys_eq each]
    exact (holds field found entries rest object).1
  obtain ⟨body, opened, trace⟩ := object
  have runs := runs_readField distinct sets known unknown each admitted once
  exact ⟨body, opened, runs.readMembers trace (Nat.lt_succ_self body.length)⟩

theorem skipField_of_readValue {state : σ} {key : String} {behind start after : List Char} {value : Value}
    (colon : readColon behind = .ok start) (read : readValue room start = .ok (value, after)) :
    skipField state key behind = .ok (state, after) := by
  simp only [skipField, colon, steps_readValue room _ _ _ read, bind, Except.bind, pure, Except.pure]

end Record

theorem isDistinct_of_ofText {content : String} {value : Value}
    (parsed : Value.ofText content = .ok value) : value.IsDistinct := by
  obtain ⟨rest, read, _⟩ := finish_eq_ok_iff.mp parsed
  exact isDistinct_of_readValue read

theorem isDistinct_of_mem {content : String} {members : Members}
    (parsed : Value.ofText content = .ok (.object members)) {member : String × Value}
    (listed : member ∈ members) : member.2.IsDistinct := by
  cases isDistinct_of_ofText parsed with
  | object _ each => exact each member listed

theorem isReadFrom_of_ofText {content : String} {members : Members}
    (parsed : Value.ofText content = .ok (.object members)) :
    members.IsReadFrom (depthLimit - 1) content.toList := by
  obtain ⟨rest, read, _⟩ := finish_eq_ok_iff.mp parsed
  have opened : readValue (depthLimit - 1 + 1) content.toList = .ok (.object members, rest) := read
  obtain ⟨entries, written, object, each, rfl⟩ := exists_written_of_readValue opened
  exact isReadFrom_collapse object each

theorem expectString_of_readValue {room : Nat} {text rest : List Char} {string : String}
    (read : readValue room text = .ok (.string string, rest)) :
    expectString text = .ok (string, rest) := by
  rcases readValue_cases read with scalar | ⟨_, _, ⟨_, _, _, same, _⟩ | ⟨_, _, _, same, _⟩⟩
  · unfold readScalar at scalar
    split at scalar
    · simp at scalar
    · exact absurd (eq_of_readWord scalar) (by simp)
    · exact absurd (eq_of_readWord scalar) (by simp)
    · exact absurd (eq_of_readWord scalar) (by simp)
    · rename_i body quote
      obtain ⟨string', read', same⟩ := exists_of_map_eq_ok scalar
      obtain rfl := Value.string.inj same
      simp only [expectString, quote, read']
    · obtain ⟨_, _, same⟩ := exists_of_map_eq_ok scalar
      simp at same
    · split at scalar
      · obtain ⟨_, _, same⟩ := exists_of_map_eq_ok scalar
        simp at same
      · simp at scalar
  · simp at same
  · simp at same

theorem expectMap_of_readValue {room : Nat} {text rest : List Char} {members : Members}
    (read : readValue (room + 1) text = .ok (.object members, rest)) :
    expectMap room text = .ok (members, rest) := by
  rcases readValue_cases read with scalar | ⟨inner, same, ⟨_, _, _, array, _⟩ |
    ⟨body, members', opened, object, inside⟩⟩
  · exact absurd scalar not_readScalar_object
  · simp at array
  · obtain rfl := Nat.succ.inj same
    obtain rfl := Value.object.inj object
    simp only [expectMap, opened, inside]

end WebTestLint.Json
