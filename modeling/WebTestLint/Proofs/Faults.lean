import WebTestLint.Document.Kind
import WebTestLint.Proofs.Lines
import WebTestLint.Proofs.Skipping

/-!
What the fault of a text repeats of it. A message names the keys of known fields and describes values, in
which strings stand escaped, so it never breaks a line, whatever the text.
-/

namespace WebTestLint

theorem lineFeed_notMem_toDigits (base number : Nat) (large : 1 < base) (small : base ≤ 16) :
    '\n' ∉ Nat.toDigits base number := by
  have digit : ∀ value < 16, '\n' ≠ Nat.digitChar value := by decide
  induction number using Nat.strongRecOn with
  | ind number ih =>
      rw [Nat.toDigits_eq_if large]
      split
      · rename_i single
        rw [List.mem_singleton]
        exact digit number (Nat.lt_of_lt_of_le single small)
      · have shorter : number / base < number := Nat.div_lt_self (by omega) large
        have last := digit (number % base) (Nat.lt_of_lt_of_le (Nat.mod_lt _ (by omega)) small)
        rw [List.mem_append, List.mem_singleton]
        exact fun member => member.elim (ih _ shorter) last

theorem lineFeed_notMem_escape (c : Char) : '\n' ∉ escape c := by
  have digits := lineFeed_notMem_toDigits 16 c.toNat (by decide) (by decide)
  fun_cases escape c with
  | case7 =>
      rw [List.mem_append, List.mem_append]
      rintro ((lead | code) | close)
      · exact absurd lead (by decide)
      · exact digits code
      · exact absurd close (by decide)
  | case8 _ _ other => simpa [eq_comm] using other
  | _ => decide

theorem isLine_escaped (text : String) : IsLine (escaped text) := by
  rw [IsLine, escaped, String.toList_ofList, List.mem_append, List.mem_cons, List.mem_flatMap]
  rintro ((lead | ⟨c, _, member⟩) | close)
  · exact absurd lead (by decide)
  · exact lineFeed_notMem_escape c member
  · exact absurd close (by decide)

namespace Json

namespace Number

theorem lineFeed_notMem_plain {digits : List Char} (plain : '\n' ∉ digits) (leading : Int) :
    '\n' ∉ Number.plain digits leading := by
  have taken (count : Nat) : '\n' ∉ digits.take count := fun member => plain (List.mem_of_mem_take member)
  have dropped (count : Nat) : '\n' ∉ digits.drop count := fun member => plain (List.mem_of_mem_drop member)
  unfold Number.plain
  split
  · simp [plain]
  · simp only [List.mem_append, List.mem_cons]
    split <;> simp_all

theorem lineFeed_notMem_scientific {digits : List Char} (plain : '\n' ∉ digits) (leading : Int) :
    '\n' ∉ scientific digits leading := by
  have taken : '\n' ∉ digits.take 1 := fun member => plain (List.mem_of_mem_take member)
  have dropped : '\n' ∉ digits.drop 1 := fun member => plain (List.mem_of_mem_drop member)
  have power := lineFeed_notMem_toDigits 10 leading.natAbs (by decide) (by decide)
  have fraction : '\n' ∉ (if (digits.drop 1).isEmpty then [] else '.' :: digits.drop 1) := by
    split
    · exact List.not_mem_nil
    · exact List.not_mem_cons_of_ne_of_not_mem (by decide) dropped
  have mark : '\n' ∉ ['e', if leading < 0 then '-' else '+'] := by
    split <;> decide
  simp only [scientific, List.mem_append]
  rintro (((first | second) | third) | fourth)
  · exact taken first
  · exact fraction second
  · exact mark third
  · exact power fourth

theorem lineFeed_notMem_write (number : Number) : '\n' ∉ number.write := by
  have digits (value : Nat) := lineFeed_notMem_toDigits 10 value (by decide) (by decide)
  cases number with
  | natural value => exact digits value
  | negative value => exact List.not_mem_cons_of_ne_of_not_mem (by decide) (digits value)
  | float value =>
      have sign : '\n' ∉ (if value.negative then ['-'] else []) := by
        split <;> decide
      have magnitude : '\n' ∉ magnitude value.units := by
        unfold Number.magnitude
        split
        · decide
        · simp only
          split
          · exact lineFeed_notMem_plain (digits _) _
          · exact lineFeed_notMem_scientific (digits _) _
      rw [write, List.mem_append]
      exact fun member => member.elim sign magnitude

end Number

theorem Value.isLine_describe (value : Value) : IsLine value.describe := by
  have written (number : Number) : IsLine (String.ofList number.write) := by
    simpa [IsLine] using number.lineFeed_notMem_write
  fun_cases Value.describe value with
  | case4 number =>
      rw [isLine_append, isLine_append]
      exact ⟨⟨by decide, written _⟩, by decide⟩
  | case5 number =>
      rw [isLine_append, isLine_append]
      exact ⟨⟨by decide, written _⟩, by decide⟩
  | case6 text =>
      rw [isLine_append]
      exact ⟨by decide, isLine_escaped text⟩
  | _ => decide +kernel

@[simp] def Fault.Cause.repeats : Fault.Cause → List String
  | .duplicateField name => [name]
  | .invalidType found expected => [found, expected]
  | _ => []

theorem Fault.Cause.isLine_message {cause : Fault.Cause} (plain : ∀ text ∈ cause.repeats, IsLine text) :
    IsLine cause.message := by
  cases cause with
  | duplicateField name =>
      have named := plain name (by simp)
      change IsLine ("duplicate field `" ++ name ++ "`")
      rw [isLine_append, isLine_append]
      exact ⟨⟨by decide, named⟩, by decide⟩
  | invalidType found expected =>
      have described := plain found (by simp)
      have named := plain expected (by simp)
      change IsLine ("invalid type: " ++ found ++ ", expected " ++ expected)
      rw [isLine_append, isLine_append, isLine_append]
      exact ⟨⟨⟨by decide, described⟩, by decide⟩, named⟩
  | _ => decide +kernel

/-- A fault whose message keeps to a line. -/
def Fault.IsPlain (fault : Fault) : Prop := ∀ text ∈ fault.cause.repeats, IsLine text

@[simp] theorem Fault.isPlain_before_iff (cause : Fault.Cause) (rest : List Char) :
    (Fault.before cause rest).IsPlain ↔ ∀ text ∈ cause.repeats, IsLine text := Iff.rfl

@[simp] theorem Fault.isPlain_past_iff (cause : Fault.Cause) (rest : List Char) :
    (Fault.past cause rest).IsPlain ↔ ∀ text ∈ cause.repeats, IsLine text := Iff.rfl

abbrev Plain {α : Type} (result : Except Fault α) : Prop := FailsWith Fault.IsPlain result

theorem plain_bind {α β : Type} {result : Except Fault α} {next : α → Except Fault β}
    (plain : Plain result) (each : ∀ value, Plain (next value)) : Plain (result >>= next) :=
  failsWith_bind plain fun value _ => each value

@[simp] theorem isPlain_unitFault (text : List Char) : (unitFault text).IsPlain := by
  unfold unitFault
  split <;> simp [Fault.IsPlain, Fault.before]

theorem plain_readTrailing (leading : Nat) (text : List Char) : Plain (readTrailing leading text) := by
  fun_cases readTrailing leading text <;> simp

theorem plain_readEscape (text : List Char) : Plain (readEscape text) := by
  fun_cases readEscape text <;> simp [plain_readTrailing]

theorem plain_readBody (text : List Char) : Plain (readBody text) := by
  fun_induction readBody text with
  | case1 => simp
  | case2 => simp
  | case3 rest c after read ih => simpa using ih
  | case4 rest fault read =>
      have plain := plain_readEscape rest
      rw [read] at plain
      exact (failsWith_error_iff fault).mpr ((failsWith_error_iff fault).mp plain)
  | case5 => simp
  | case6 c rest _ _ _ ih => simpa using ih

theorem plain_readString (text : List Char) : Plain (readString text) := by
  simp [readString, plain_readBody]

theorem plain_skipString (text : List Char) : Plain (skipString text) := by
  fun_induction skipString text <;> simp_all

namespace Number

theorem plain_ofParts (negative : Bool) (significand : Nat) (exponent : Int) (rest : List Char) :
    Plain (ofParts negative significand exponent rest) := by
  fun_cases ofParts negative significand exponent rest <;> simp_all

theorem plain_ofExponentDigits (negative : Bool) (significand : Nat) (exponent : Int) (falling : Bool)
    (text : List Char) : Plain (ofExponentDigits negative significand exponent falling text) := by
  unfold ofExponentDigits
  split
  · simp
  · split
    · split
      · split
        · split <;> simp
        · exact plain_ofParts _ _ _ _
      · exact plain_ofParts _ _ _ _
    · simp

theorem plain_ofExponent (negative : Bool) (significand : Nat) (exponent : Int) (text : List Char) :
    Plain (ofExponent negative significand exponent text) := by
  fun_cases ofExponent negative significand exponent text <;> exact plain_ofExponentDigits _ _ _ _ _

theorem plain_ofRest (negative : Bool) (significand : Nat) (exponent : Int) (text : List Char) :
    Plain (ofRest negative significand exponent text) := by
  unfold ofRest
  split
  · split
    · exact plain_ofExponent _ _ _ _
    · exact plain_ofParts _ _ _ _
  · exact plain_ofParts _ _ _ _

theorem plain_ofFraction (negative : Bool) (significand : Nat) (exponent : Int) (text : List Char) :
    Plain (ofFraction negative significand exponent text) := by
  simp only [ofFraction]
  split
  · exact plain_ofRest _ _ _ _
  · split <;> simp

theorem plain_read (negative : Bool) (text : List Char) : Plain (read negative text) := by
  unfold read
  split
  · simp
  · split
    · simp
    · split
      · simp
      · simp only
        split
        · exact plain_ofFraction _ _ _ _
        · split
          · exact plain_ofRest _ _ _ _
          · simp

end Number

theorem plain_readWord (value : Value) (letters text : List Char) : Plain (readWord value letters text) := by
  fun_induction readWord value letters text <;> simp_all

theorem plain_readScalar (text : List Char) : Plain (readScalar text) := by
  fun_cases readScalar text <;> simp [plain_readWord, plain_readString, Number.plain_read]

theorem plain_readColon (text : List Char) : Plain (readColon text) := by
  fun_cases readColon text <;> simp

theorem plain_nextItem (first : Bool) (text : List Char) : Plain (nextItem first text) := by
  fun_cases nextItem first text <;> simp

theorem plain_endItems (text : List Char) : Plain (endItems text) := by
  fun_cases endItems text <;> simp

theorem plain_nextKey (first : Bool) (text : List Char) : Plain (nextKey first text) := by
  fun_cases nextKey first text <;> simp [plain_readString]

theorem plain_readItems {α : Type} {item : List Char → Reading α} (each : ∀ text, Plain (item text))
    (fuel : Nat) (first : Bool) (text : List Char) : Plain (readItems item fuel first text) := by
  induction fuel generalizing first text with
  | zero => simp [readItems]
  | succ fuel ih =>
      refine plain_bind (plain_nextItem first text) fun next => ?_
      cases next with
      | none => exact failsWith_ok _
      | some rest => exact plain_bind (each rest) fun _ => plain_bind (ih _ _) fun _ => failsWith_ok _

theorem plain_readMembers {σ : Type} {member : σ → String → List Char → Reading σ}
    (each : ∀ state key text, Plain (member state key text)) (fuel : Nat) (first : Bool) (state : σ)
    (text : List Char) : Plain (readMembers member fuel first state text) := by
  induction fuel generalizing first state text with
  | zero => simp [readMembers]
  | succ fuel ih =>
      refine plain_bind (plain_nextKey first text) fun next => ?_
      cases next with
      | none => exact failsWith_ok _
      | some named => exact plain_bind (each _ _ _) fun _ => ih _ _ _

theorem plain_readMember {value : List Char → Reading Value} (each : ∀ text, Plain (value text))
    (members : Members) (key : String) (text : List Char) : Plain (readMember value members key text) :=
  plain_bind (plain_readColon text) fun _ => plain_bind (each _) fun _ => failsWith_ok _

theorem plain_readValue (room : Nat) (text : List Char) : Plain (readValue room text) := by
  induction room generalizing text with
  | zero =>
      unfold readValue
      split <;> simp_all [plain_readScalar]
  | succ room ih =>
      unfold readValue
      split <;> simp_all [plain_readItems, plain_readMembers, plain_readMember, plain_readScalar]

theorem plain_finish {α : Type} {reading : Reading α} (plain : Plain reading) : Plain (finish reading) := by
  refine plain_bind plain fun read => ?_
  dsimp only
  split
  · exact failsWith_ok _
  · simp

theorem plain_skipExponent (text : List Char) : Plain (skipExponent text) := by
  unfold skipExponent
  extract_lets digits
  split <;> simp

theorem plain_skipPower (text : List Char) : Plain (skipPower text) := by
  unfold skipPower
  split
  · split
    · exact plain_skipExponent _
    · exact failsWith_ok _
  · exact failsWith_ok _

theorem plain_skipNumber (text : List Char) : Plain (skipNumber text) := by
  unfold skipNumber
  split
  · simp
  · split
    · simp
    · split
      · simp
      · split
        · split
          · exact plain_skipPower _
          · simp
        · exact plain_skipPower _

theorem plain_skipScalar (text : List Char) : Plain (skipScalar text) := by
  unfold skipScalar
  split
  · exact plain_skipString _
  · exact plain_skipNumber _
  · split
    · exact plain_skipNumber _
    · exact (failsWith_map_iff _ _).mpr (plain_readScalar _)
  · simp

theorem plain_skipKey (text : List Char) : Plain (skipKey text) := by
  fun_cases skipKey text with
  | case1 => exact plain_bind (plain_skipString _) fun _ => plain_readColon _
  | _ => simp

theorem plain_skipOpen_and_skipClosed (fuel : Nat) :
    (∀ brackets text, Plain (skipOpen fuel brackets text)) ∧
      ∀ brackets text, Plain (skipClosed fuel brackets text) := by
  induction fuel with
  | zero =>
      constructor
      · intro brackets text
        simp [skipOpen]
      · intro brackets text
        cases brackets <;> simp [skipClosed]
  | succ fuel ih =>
      obtain ⟨opened, closed⟩ := ih
      constructor
      · intro brackets text
        unfold skipOpen
        split
        · split
          · simp
          · exact closed _ _
          · exact opened _ _
        · split
          · simp
          · exact closed _ _
          · exact plain_bind (plain_skipKey _) fun _ => opened _ _
        · exact plain_bind (plain_skipScalar _) fun _ => closed _ _
      · intro brackets text
        rcases brackets with _ | ⟨_ | _, outer⟩
        · simp [skipClosed]
        · unfold skipClosed
          split
          · simp
          · exact opened _ _
          · exact closed _ _
          · simp
        · unfold skipClosed
          split
          · simp
          · exact plain_bind (plain_skipKey _) fun _ => opened _ _
          · exact closed _ _
          · simp

theorem plain_skipValue (text : List Char) : Plain (skipValue text) :=
  (plain_skipOpen_and_skipClosed _).1 _ _

theorem isPlain_mismatch {expected : String} (line : IsLine expected) (text : List Char) :
    (mismatch expected text).IsPlain := by
  unfold mismatch
  split
  · simp only [Fault.isPlain_before_iff, Fault.Cause.repeats, List.forall_mem_cons]
    exact ⟨by decide, line, List.forall_mem_nil _⟩
  · simp only [Fault.isPlain_before_iff, Fault.Cause.repeats, List.forall_mem_cons]
    exact ⟨by decide, line, List.forall_mem_nil _⟩
  · split
    · rename_i value rest _
      simp [line, value.isLine_describe]
    · rename_i fault read
      have plain := plain_readScalar text
      rw [read] at plain
      exact (failsWith_error_iff fault).mp plain

theorem plain_expectString (text : List Char) : Plain (expectString text) := by
  unfold expectString
  split
  · exact plain_readString _
  · exact (failsWith_error_iff _).mpr (isPlain_mismatch (by decide) _)

theorem plain_expectMap (room : Nat) (text : List Char) : Plain (expectMap room text) := by
  unfold expectMap
  split
  · exact plain_readMembers (fun _ _ _ => plain_readMember (plain_readValue room) _ _ _) _ _ _ _
  · exact (failsWith_error_iff _).mpr (isPlain_mismatch (by decide) _)

theorem isPlain_duplicate {key : String} (line : IsLine key) (text : List Char) :
    (duplicate key text).IsPlain := by
  unfold duplicate
  split <;> simp [line]

section

variable {σ : Type} {fields : List (Field σ)}

structure Field.IsPlain (field : Field σ) : Prop where
  key : IsLine field.key
  read : ∀ state text, Plain (field.read state text)

theorem plain_readField (plain : ∀ field ∈ fields, field.IsPlain)
    {other : σ → String → List Char → Except Fault (σ × List Char)}
    (others : ∀ state key text, Plain (other state key text)) (state : σ) (key : String) (text : List Char) :
    Plain (readField fields other state key text) := by
  unfold readField
  split
  · rename_i field found
    have held := plain field (List.mem_of_find?_eq_some found)
    have same : field.key = key := by simpa using List.find?_some found
    split
    · exact (failsWith_error_iff _).mpr (isPlain_duplicate (same ▸ held.key) _)
    · exact plain_bind (plain_readColon _) fun _ => held.read _ _
  · exact others _ _ _

theorem plain_skipField (state : σ) (key : String) (text : List Char) : Plain (skipField state key text) :=
  plain_bind (plain_readColon _) fun _ => plain_bind (plain_skipValue _) fun _ => failsWith_ok _

theorem plain_readFields (plain : ∀ field ∈ fields, field.IsPlain) (first : Bool) (state : σ) (text : List Char) :
    Plain (readFields fields first state text) := by
  induction fields generalizing first state text with
  | nil => exact plain_bind (plain_endItems _) fun _ => failsWith_ok _
  | cons field fields ih =>
      rw [List.forall_mem_cons] at plain
      refine plain_bind (plain_nextItem _ _) fun next => ?_
      cases next with
      | none => exact failsWith_ok _
      | some rest => exact plain_bind (plain.1.read _ _) fun _ => ih plain.2 _ _ _

theorem plain_readRecord {name : String} (line : IsLine name) (plain : ∀ field ∈ fields, field.IsPlain)
    (empty : σ) (text : List Char) : Plain (readRecord name fields empty text) := by
  unfold readRecord
  split
  · exact plain_readMembers (plain_readField plain plain_skipField) _ _ _ _
  · exact plain_readFields plain _ _ _
  · exact (failsWith_error_iff _).mpr (isPlain_mismatch line _)

end

end Json

theorem Configuration.plain_read (text : List Char) : Json.Plain (read text) := by
  refine (failsWith_map_iff _ _).mpr (Json.plain_readRecord (by decide) ?_ _ _)
  simp only [fields, List.forall_mem_cons]
  exact ⟨⟨by decide, fun _ _ => Json.plain_bind (Json.plain_expectString _) fun _ => failsWith_ok _⟩,
    ⟨by decide, fun _ _ => Json.plain_bind (Json.plain_expectString _) fun _ => failsWith_ok _⟩,
    List.forall_mem_nil _⟩

theorem Test.plain_readStep (draft : Draft) (key : String) (text : List Char) :
    Json.Plain (readStep draft key text) :=
  Json.plain_bind (Json.plain_readMember (Json.plain_readValue _) _ _ _) fun _ => failsWith_ok _

theorem Test.plain_read (text : List Char) : Json.Plain (read text) := by
  have plain : ∀ field ∈ fields, field.IsPlain := by
    simp only [fields, List.forall_mem_singleton]
    exact ⟨by decide, fun _ _ => Json.plain_bind (Configuration.plain_read _) fun _ => failsWith_ok _⟩
  unfold read
  split
  · exact Json.plain_readMembers (Json.plain_readField plain plain_readStep) _ _ _ _
  · exact (failsWith_error_iff _).mpr (Json.isPlain_mismatch (by decide) _)

theorem Page.plain_read (text : List Char) :
    Json.Plain (Json.readRecord "struct PageDocument" fields ⟨none, none⟩ text) := by
  refine Json.plain_readRecord (by decide) ?_ _ _
  simp only [fields, List.forall_mem_cons]
  exact ⟨⟨by decide, fun _ _ => Json.plain_bind (Json.plain_expectString _) fun _ => failsWith_ok _⟩,
    ⟨by decide, fun _ _ => Json.plain_bind (Json.plain_expectMap _ _) fun _ => failsWith_ok _⟩,
    List.forall_mem_nil _⟩

namespace ShapeFault

/-- The names that a fault of shape repeats. -/
def names : ShapeFault → List String
  | .unknownKind => []
  | .stepNotObject step => [step]
  | .stepType step _ _ => [step]
  | .rowNotObject row step => [row, step]
  | .elementNotString name => [name]

def IsPlain : ShapeFault → Prop
  | .stepType _ found expected => IsLine found ∧ IsLine expected
  | _ => True

theorem isLine_message_iff {fault : ShapeFault} (plain : fault.IsPlain) :
    IsLine fault.message ↔ ∀ name ∈ fault.names, IsLine name := by
  have step : IsLine "step \"" := by decide
  have object : IsLine "\" must be an object" := by decide
  cases fault with
  | unknownKind => exact iff_of_true (by decide) (List.forall_mem_nil _)
  | stepNotObject name => simp [message, names, step, object]
  | stepType name found expected =>
      have cause : IsLine (Json.Fault.Cause.invalidType found expected).message :=
        Json.Fault.Cause.isLine_message (by simpa [IsPlain] using plain)
      have between : IsLine "\": " := by decide
      simp [message, names, step, between, cause]
  | rowNotObject row name =>
      have lead : IsLine "data set \"" := by decide
      have between : IsLine "\" of step \"" := by decide
      simp [message, names, lead, between, object]
  | elementNotString name =>
      have lead : IsLine "element \"" := by decide
      have close : IsLine "\" must be a string identifier" := by decide
      simp [message, names, lead, close]

end ShapeFault

namespace LoadError

/-- The names that an error repeats. A fault of a text that is no JSON of the right types repeats none. -/
def names : LoadError → List String
  | .json _ _ => []
  | .shape fault => fault.names

def BreaksByNames (error : LoadError) : Prop := IsLine error.detail ↔ ∀ name ∈ error.names, IsLine name

theorem breaksByNames_ofFault (text : List Char) {fault : Json.Fault} (plain : fault.IsPlain) :
    (ofFault text fault).BreaksByNames := by
  have message := Json.Fault.Cause.isLine_message plain
  have line : IsLine " at line " := by decide
  have column : IsLine " column " := by decide
  simp [BreaksByNames, ofFault, detail, names, message, line, column]

theorem breaksByNames_shape {fault : ShapeFault} (plain : fault.IsPlain) : (shape fault).BreaksByNames :=
  ShapeFault.isLine_message_iff plain

end LoadError

namespace Step

structure Mismatch.IsPlain (mismatch : Mismatch) : Prop where
  found : IsLine mismatch.found
  expected : IsLine mismatch.expected

theorem isLine_expected : ∀ expected ∈ ["a string", "a sequence", "a map"], IsLine expected := by
  decide

theorem failsWith_linesOf (value : Json.Value) : FailsWith Mismatch.IsPlain (linesOf value) := by
  unfold linesOf
  split
  · refine failsWith_mapM fun item _ => ?_
    split
    · exact failsWith_ok _
    · exact (failsWith_error_iff _).mpr ⟨Json.Value.isLine_describe _, isLine_expected _ (by simp)⟩
  · exact (failsWith_error_iff _).mpr ⟨Json.Value.isLine_describe _, isLine_expected _ (by simp)⟩

theorem failsWith_dataOf (value : Json.Value) : FailsWith Mismatch.IsPlain (dataOf value) := by
  unfold dataOf
  split
  · exact failsWith_ok _
  · exact failsWith_ok _
  · exact (failsWith_error_iff _).mpr ⟨Json.Value.isLine_describe _, isLine_expected _ (by simp)⟩

theorem failsWith_add (draft : Draft) (member : String × Json.Value) :
    FailsWith Mismatch.IsPlain (draft.add member) := by
  unfold Draft.add
  split
  · exact failsWith_bind (failsWith_linesOf _) fun _ _ => failsWith_ok _
  · split
    · exact failsWith_bind (failsWith_linesOf _) fun _ _ => failsWith_ok _
    · split
      · exact failsWith_bind (failsWith_dataOf _) fun _ _ => failsWith_ok _
      · exact failsWith_ok _

theorem failsWith_foldlM_add (draft : Draft) (members : Json.Members) :
    FailsWith Mismatch.IsPlain (members.foldlM Draft.add draft) := by
  induction members generalizing draft with
  | nil => exact failsWith_ok _
  | cons member members ih =>
      rw [List.foldlM_cons]
      exact failsWith_bind (failsWith_add draft member) fun next _ => ih next

theorem failsWith_ofDraft (name : String) (draft : Draft) :
    FailsWith ShapeFault.IsPlain (ofDraft name draft) := by
  refine failsWith_bind ?_ fun _ _ => failsWith_ok _
  cases draft.data? with
  | none => exact failsWith_ok _
  | some rows =>
      refine (failsWith_map_iff _ _).mpr (failsWith_mapM fun row _ => ?_)
      unfold Data.ofRow
      split
      · exact failsWith_ok _
      · exact (failsWith_error_iff _).mpr trivial

theorem failsWith_ofMember (member : String × Json.Value) :
    FailsWith ShapeFault.IsPlain (ofMember member) := by
  unfold ofMember
  split
  · rename_i name members
    split
    · exact (failsWith_map_iff _ _).mpr (failsWith_ofDraft _ _)
    · rename_i mismatch failed
      have plain := failsWith_foldlM_add ⟨[], [], none⟩ members mismatch failed
      exact (failsWith_error_iff _).mpr ⟨plain.found, plain.expected⟩
  · exact (failsWith_error_iff _).mpr trivial

end Step

theorem Page.failsWith_identifierOf (element : String × Json.Value) :
    FailsWith ShapeFault.IsPlain (identifierOf element) := by
  unfold identifierOf
  split
  · exact failsWith_ok _
  · exact (failsWith_error_iff _).mpr trivial

section

variable {α : Type}

theorem failsWith_mapError_ofFault (text : List Char) {result : Except Json.Fault α} (plain : Json.Plain result) :
    FailsWith LoadError.BreaksByNames (result.mapError (.ofFault text)) :=
  (failsWith_mapError_iff _ _).mpr fun fault failed =>
    LoadError.breaksByNames_ofFault text (plain fault failed)

theorem failsWith_mapError_shape {result : Except ShapeFault α} (plain : FailsWith ShapeFault.IsPlain result) :
    FailsWith LoadError.BreaksByNames (result.mapError .shape) :=
  (failsWith_mapError_iff _ _).mpr fun fault failed => LoadError.breaksByNames_shape (plain fault failed)

end

theorem Test.failsWith_load (content : String) : FailsWith LoadError.BreaksByNames (load content) := by
  refine failsWith_bind ?_ fun draft _ => failsWith_bind ?_ fun _ _ => failsWith_ok _
  · exact failsWith_mapError_ofFault _ (Json.plain_finish (plain_read _))
  · exact failsWith_mapError_shape (failsWith_mapM fun member _ => Step.failsWith_ofMember member)

theorem Page.failsWith_load (content importName : String) :
    FailsWith LoadError.BreaksByNames (load content importName) := by
  refine failsWith_bind ?_ fun draft _ => failsWith_bind ?_ fun _ _ => failsWith_ok _
  · exact failsWith_mapError_ofFault _ (Json.plain_finish (plain_read _))
  · exact failsWith_mapError_shape (failsWith_mapM fun element _ => failsWith_identifierOf element)

namespace Document

theorem failsWith_kindOf (content : String) : FailsWith LoadError.BreaksByNames (kindOf content) := by
  refine failsWith_bind (failsWith_mapError_ofFault _ (Json.plain_finish (Json.plain_readValue _ _)))
    fun value _ => ?_
  split
  · exact failsWith_ok _
  · exact (failsWith_error_iff _).mpr (LoadError.breaksByNames_shape trivial)

theorem failsWith_lint (kind? : Option Kind) (content importName : String) :
    FailsWith LoadError.BreaksByNames (lint kind? content importName) := by
  refine failsWith_bind ?_ fun kind _ => failsWith_bind ?_ fun _ _ => failsWith_ok _
  · cases kind? with
    | some kind => exact failsWith_ok _
    | none => exact failsWith_kindOf content
  · cases kind with
    | test => exact (failsWith_map_iff _ _).mpr (Test.failsWith_load content)
    | page => exact (failsWith_map_iff _ _).mpr (Page.failsWith_load content importName)

end Document

end WebTestLint
