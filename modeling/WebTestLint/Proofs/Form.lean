import WebTestLint.Value
import WebTestLint.Proofs.Reference
import WebTestLint.Proofs.Splitting

/-!
The forms of values. No text has two of them, so the checks of a value may be made in any order.
-/

namespace WebTestLint

namespace Identifier

open Scan (nestedText opening startsNested)

theorem prefix_of_isSingle {text : List Char} (single : isSingle text = true) :
    ['$', '"'] <+: text := by
  obtain ⟨body, suffix, _, _, rfl⟩ := shape_of_isSingle single
  exact List.prefix_append ['$', '"'] _

theorem prefix_of_isNested {text : List Char} (nested : isNested text = true) :
    ['$', '"'] <+: text := by
  obtain ⟨parent, selector, found, _, _⟩ := (isNested_iff text).mp nested
  rw [eq_nestedText_of_splitNested? found]
  exact List.prefix_append ['$', '"'] _

def StartsIdentifier (head : List Char) : Prop := ['$', '"'] <+: head ∨ isPageElement head = true

theorem startsIdentifier_of_isHead {text : List Char} (head : isHead text = true) :
    StartsIdentifier text := by
  simp only [isHead, Bool.or_eq_true] at head
  rcases head with (element | page) | nested
  · exact Or.inl (prefix_of_isSingle (isSingle_of_isElement element))
  · exact Or.inr page
  · exact Or.inl (prefix_of_isNested nested)

theorem head?_of_startsIdentifier {text : List Char} (starts : StartsIdentifier text) :
    text.head? = some '$' := by
  rcases starts with ⟨rest, rfl⟩ | page
  · rfl
  · obtain ⟨name, _, rfl⟩ := exists_name_of_isPageElement page
    rfl

theorem isHead_of_isDescendantElement {text : List Char} (descends : isDescendantElement text = true) :
    isHead (Chain.ofText text).head = true := by
  rcases (isDescendantElement_iff text).mp descends with ⟨single, nested⟩ | ⟨_, head, _⟩
  · simp [Chain.ofText_of_links_eq_nil single, isHead, nested]
  · exact head

theorem exists_last_of_isDescendantAttribute {text : List Char}
    (descends : isDescendantAttribute text = true) :
    ∃ last, (Chain.ofText text).links.getLast? = some last ∧ isAttribute last = true ∧
      isHead (Chain.ofText text).head = true := by
  simp only [isDescendantAttribute] at descends
  split at descends
  · simp at descends
  · rename_i last found
    simp only [Bool.and_eq_true] at descends
    exact ⟨last, found, descends.1.1, descends.1.2⟩

theorem not_dotted_of_startsIdentifier {text name rest : List Char}
    (starts : StartsIdentifier (Chain.ofText text).head) (named : isName name = true) :
    text ≠ '$' :: (name ++ '.' :: rest) := by
  rintro rfl
  have plain : ∀ c ∈ '$' :: (name ++ ['.']), Chain.IsPlain c := by
    intro c member
    simp only [List.mem_cons, List.mem_append, List.not_mem_nil, or_false] at member
    rcases member with rfl | inside | rfl
    · simp [Chain.IsPlain]
    · exact Chain.isPlain_of_isSuffixChar (Or.inl (isNameChar_of_isName named c inside))
    · simp [Chain.IsPlain]
  have taken := Chain.crosses_plain 0 false plain rest
  have shaped : '$' :: (name ++ '.' :: rest) = '$' :: (name ++ ['.']) ++ rest := by simp
  rw [Chain.ofText, shaped, taken] at starts
  rcases starts with quoted | page
  · cases name with
    | nil => simp [isName] at named
    | cons c name =>
        obtain ⟨_, same⟩ := quoted
        obtain rfl : '"' = c := by simpa [Chain.extend] using (List.cons.inj (List.cons.inj same).2).1
        simp [isName, isNameChar] at named
  · obtain ⟨whole, letters, same⟩ := exists_name_of_isPageElement page
    have dot : '.' ∈ whole := by
      rw [← (List.cons.inj same).2]
      simp
    simpa [isNameChar] using isNameChar_of_isName letters '.' dot

theorem isAttribute_eq_false_of_isElement {text : List Char} (element : isElement text = true) :
    isAttribute text = false := by
  unfold isElement at element
  split at element
  · rename_i suffix found
    have dotless : ∀ c ∈ suffix, (c != '.') = true := by
      intro c member
      rcases isNameChar_or_colon_of_isPosition element c member with name | rfl
      · simp only [bne_iff_ne, ne_eq]
        rintro rfl
        simp [isNameChar] at name
      · decide
    have behind : suffix.dropWhile (· != '.') = [] := List.dropWhile_eq_nil_iff.mpr dotless
    simp [isAttribute, found, behind, isProperty]
  · simp at element

theorem not_infix_of_quotable {body : List Char} (quotable : Quotable body) :
    ¬ ['$', '"'] <:+: body := by
  have unquoted {c : Char} {rest : List Char} (inner : Quotable rest) : ¬ ['$', '"'] <+: c :: rest := by
    rintro ⟨after, same⟩
    obtain rfl : '"' :: after = rest := (List.cons.inj same).2
    exact ((quotable_cons_iff (by decide) _).mp inner).1 rfl
  induction quotable with
  | nil => simp
  | plain _ _ inner ih =>
      intro found
      rcases List.infix_cons_iff.mp found with started | found
      · exact unquoted inner started
      · exact ih found
  | escaped inner ih =>
      intro found
      rcases List.infix_cons_iff.mp found with started | found
      · simp at started
      · rcases List.infix_cons_iff.mp found with started | found
        · exact unquoted inner started
        · exact ih found

theorem infix_of_isTarget {text : List Char} (target : isTarget text = true) :
    ['$', '"'] <:+: text := by
  simp only [isTarget, Bool.or_eq_true] at target
  rcases target with element | descends
  · exact (prefix_of_isSingle (isSingle_of_isElement element)).isInfix
  · rcases (isDescendantElement_iff text).mp descends with ⟨_, nested⟩ | ⟨filled, _, below⟩
    · exact (prefix_of_isNested nested).isInfix
    · obtain ⟨link, member⟩ := List.exists_mem_of_ne_nil _ filled
      have quoted := (prefix_of_isSingle (isSingle_of_isElement (below link member))).isInfix
      have inside := Chain.infix_text_of_mem (List.mem_cons_of_mem (Chain.ofText text).head member)
      rw [Chain.text_ofText] at inside
      exact quoted.trans inside

theorem isSingle_eq_false_of_isNested {text : List Char} (nested : isNested text = true) :
    isSingle text = false := by
  obtain ⟨parent, selector, found, _, target⟩ := (isNested_iff text).mp nested
  by_contra single
  obtain ⟨body, suffix, quotable, touching, same⟩ := shape_of_isSingle (by simpa using single)
  rw [eq_nestedText_of_splitNested? found] at same
  have inner : ['{', '{', ' '] ++ parent ++ [' ', '}', '}', ' '] ++ selector ++ ['"'] =
      body ++ '"' :: suffix := by
    simpa [nestedText, opening, startsNested] using same
  -- The parent has a quote that nothing escapes, so the body of a single identifier cannot hold it.
  rcases List.eq_nil_or_concat suffix with rfl | ⟨front, c, rfl⟩
  · have whole := List.append_cancel_right inner
    have inside : parent <:+: body := ⟨['{', '{', ' '], [' ', '}', '}', ' '] ++ selector, by simp [← whole]⟩
    exact not_infix_of_quotable quotable ((infix_of_isTarget target).trans inside)
  · have ends : body ++ '"' :: front.concat c = body ++ '"' :: front ++ [c] := by simp
    obtain rfl : '"' = c := by simpa using (List.append_inj' (inner.trans ends) rfl).2
    exact not_isSuffixChar_quote (touching '"' (by simp))

end Identifier

namespace Value

open Identifier (StartsIdentifier Chain isElement isAttribute isDescendantElement isDescendantAttribute)

inductive Form where
  | element
  | elementAttribute
  | descendantElement
  | descendantAttribute
  | data
  | environment
  | literal
  | browser
  | page
deriving DecidableEq

namespace Form

def reads (form : Form) (value : String) : Bool :=
  match form with
  | element => isElement value.toList
  | elementAttribute => isAttribute value.toList
  | descendantElement => isDescendantElement value.toList
  | descendantAttribute => isDescendantAttribute value.toList
  | data => (Data.parameterName? value).isSome
  | environment => isEnvironment value.toList
  | literal => isLiteral value.toList
  | browser => (dropStart? "$browser.".toList value.toList).isSome
  | page => (dropStart? "$page.".toList value.toList).isSome

def dotted : List (List Char × Form) :=
  [("$data.".toList, data), ("$env.".toList, environment), ("$browser.".toList, browser),
    ("$page.".toList, page)]

/-- The form of an identifier, if the text is one: a chain by its last link, a single text by what it
is itself. -/
def ofIdentifier (text : List Char) : Form :=
  match (Chain.ofText text).links.getLast? with
  | some last => if isAttribute last then descendantAttribute else descendantElement
  | none =>
    if isAttribute text then elementAttribute else if isElement text then element else descendantElement

/-- The only form that a text can have. -/
def ofText (text : List Char) : Form :=
  match dotted.find? fun entry => (dropStart? entry.1 text).isSome with
  | some entry => entry.2
  | none => if text.head? = some '$' then ofIdentifier text else literal

theorem exists_name_of_dotted {entry : List Char × Form} (member : entry ∈ dotted) :
    ∃ name, Identifier.isName name = true ∧ entry.1 = '$' :: (name ++ ['.']) := by
  simp only [dotted, List.mem_cons, List.not_mem_nil, or_false] at member
  rcases member with rfl | rfl | rfl | rfl
  · exact ⟨"data".toList, by decide, rfl⟩
  · exact ⟨"env".toList, by decide, rfl⟩
  · exact ⟨"browser".toList, by decide, rfl⟩
  · exact ⟨"page".toList, by decide, rfl⟩

theorem ofText_undotted {text : List Char}
    (undotted : ∀ name rest, Identifier.isName name = true → text ≠ '$' :: (name ++ '.' :: rest)) :
    ofText text = if text.head? = some '$' then ofIdentifier text else literal := by
  have missing : dotted.find? (fun entry => (dropStart? entry.1 text).isSome) = none := by
    rw [List.find?_eq_none]
    intro entry member started
    obtain ⟨rest, found⟩ := Option.isSome_iff_exists.mp started
    obtain ⟨name, named, shaped⟩ := exists_name_of_dotted member
    apply undotted name rest named
    rw [(dropStart?_eq_some_iff _ _ _).mp found, shaped]
    simp
  rw [ofText, missing]

theorem ofText_of_startsIdentifier {text : List Char}
    (starts : StartsIdentifier (Chain.ofText text).head) : ofText text = ofIdentifier text := by
  have dollar : text.head? = some '$' := by
    have first := Identifier.head?_of_startsIdentifier starts
    rw [← Chain.text_ofText text, Chain.text,
      List.head?_append_of_ne_nil _ (by rintro empty; simp [empty] at first)]
    exact first
  rw [ofText_undotted fun name rest named => Identifier.not_dotted_of_startsIdentifier starts named,
    if_pos dollar]

theorem ofText_of_isSingle {text : List Char} (single : Identifier.isSingle text = true) :
    ofText text = if isAttribute text then elementAttribute else element := by
  have alone := Chain.ofText_of_isSingle single
  have starts : StartsIdentifier (Chain.ofText text).head := by
    rw [alone]
    exact Or.inl (Identifier.prefix_of_isSingle single)
  have either : isElement text = true ∨ isAttribute text = true := by
    simpa [Identifier.isSingle] using single
  rw [ofText_of_startsIdentifier starts, ofIdentifier, alone]
  rcases either with isElement | isAttribute
  · simp [isElement]
  · simp [isAttribute]

theorem ofText_of_isDescendantElement {text : List Char} (descends : isDescendantElement text = true) :
    ofText text = descendantElement := by
  have head := Identifier.isHead_of_isDescendantElement descends
  rw [ofText_of_startsIdentifier (Identifier.startsIdentifier_of_isHead head), ofIdentifier]
  rcases (Identifier.isDescendantElement_iff text).mp descends with ⟨single, nested⟩ | ⟨filled, _, below⟩
  · have notSingle := Identifier.isSingle_eq_false_of_isNested nested
    simp only [Identifier.isSingle, Bool.or_eq_false_iff] at notSingle
    simp [single, notSingle]
  · have last := List.getLast?_eq_some_getLast filled
    have element := below _ (List.getLast_mem filled)
    simp [last, Identifier.isAttribute_eq_false_of_isElement element]

theorem ofText_of_isDescendantAttribute {text : List Char}
    (descends : isDescendantAttribute text = true) : ofText text = descendantAttribute := by
  obtain ⟨last, found, named, head⟩ := Identifier.exists_last_of_isDescendantAttribute descends
  rw [ofText_of_startsIdentifier (Identifier.startsIdentifier_of_isHead head), ofIdentifier]
  simp [found, named]

theorem ofText_of_isLiteral {text : List Char} (quoted : isLiteral text = true) :
    ofText text = literal := by
  have undollared : text.head? ≠ some '$' := by
    intro found
    cases text with
    | nil => simp at found
    | cons c rest =>
        obtain rfl : c = '$' := by simpa using found
        have trimmed : trim (['$'] ++ rest) = ['$'] ++ trimEnd rest :=
          trim_append (by simp) (isTrimmed_of_blankFree (by decide)) rest
        rw [List.singleton_append] at trimmed
        simp [isLiteral, trimmed] at quoted
  rw [ofText_undotted (by rintro name rest _ rfl; exact undollared rfl), if_neg undollared]

theorem eq_ofText_of_reads {form : Form} {value : String} (read : form.reads value = true) :
    form = ofText value.toList := by
  cases form with
  | element =>
      have element : isElement value.toList = true := read
      rw [ofText_of_isSingle (Identifier.isSingle_of_isElement element)]
      simp [Identifier.isAttribute_eq_false_of_isElement element]
  | elementAttribute =>
      have named : isAttribute value.toList = true := read
      have single : Identifier.isSingle value.toList = true := by simp [Identifier.isSingle, named]
      simp [ofText_of_isSingle single, named]
  | descendantElement => exact (ofText_of_isDescendantElement read).symm
  | descendantAttribute => exact (ofText_of_isDescendantAttribute read).symm
  | data =>
      obtain ⟨name, named⟩ := Option.isSome_iff_exists.mp read
      rw [Data.toList_of_parameterName? named]
      rfl
  | environment =>
      have named : isEnvironment value.toList = true := read
      unfold isEnvironment at named
      split at named
      · rename_i rest found
        rw [(dropStart?_eq_some_iff _ _ _).mp found]
        rfl
      · simp at named
  | literal => exact (ofText_of_isLiteral read).symm
  | browser =>
      obtain ⟨rest, found⟩ := Option.isSome_iff_exists.mp read
      rw [(dropStart?_eq_some_iff _ _ _).mp found]
      rfl
  | page =>
      obtain ⟨rest, found⟩ := Option.isSome_iff_exists.mp read
      rw [(dropStart?_eq_some_iff _ _ _).mp found]
      rfl

theorem eq_of_reads {first second : Form} {value : String} (left : first.reads value = true)
    (right : second.reads value = true) : first = second :=
  (eq_ofText_of_reads left).trans (eq_ofText_of_reads right).symm

def sound : List Form :=
  [element, elementAttribute, descendantElement, data, environment, literal]

def checked : List Form := sound ++ [browser, page]

end Form

def knownProperties : List String := ["$browser.size", "$page.title", "$page.url"]

def Form.fault? (form : Form) (value : String) : Option Reason :=
  match form with
  | browser | page => if value ∈ knownProperties then none else some .valuePropertyInvalid
  | _ => none

def invalid (value : String) (reason : Reason) : Verdict := .invalid (.of (.value value) .value reason)

/-- The check of a value that tries the forms in a given order. -/
def checkInOrder (order : List Form) (value : String) : Verdict :=
  match order.find? (·.reads value) with
  | none => invalid value .valueInvalid
  | some form =>
    match form.fault? value with
    | none => .valid (.value value)
    | some reason => invalid value reason

theorem find?_reads_eq_some_iff (order : List Form) (value : String) (form : Form) :
    order.find? (·.reads value) = some form ↔ form ∈ order ∧ form.reads value = true := by
  constructor
  · intro found
    exact ⟨List.mem_of_find?_eq_some found, by simpa using List.find?_some found⟩
  · rintro ⟨member, read⟩
    have present : (order.find? (·.reads value)).isSome = true := List.find?_isSome.mpr ⟨form, member, read⟩
    obtain ⟨other, found⟩ := Option.isSome_iff_exists.mp present
    have readOther : other.reads value = true := by simpa using List.find?_some found
    rw [found, Form.eq_of_reads readOther read]

theorem checkInOrder_eq_of_perm {order other : List Form} (permuted : order.Perm other)
    (value : String) : checkInOrder order value = checkInOrder other value := by
  have found : order.find? (·.reads value) = other.find? (·.reads value) := by
    ext form
    rw [find?_reads_eq_some_iff, find?_reads_eq_some_iff, permuted.mem_iff]
  rw [checkInOrder, checkInOrder, found]

theorem mem_browserProperties_iff {value : String} {property : List Char}
    (found : dropStart? "$browser.".toList value.toList = some property) :
    String.ofList property ∈ browserProperties ↔ value ∈ knownProperties := by
  have whole := (dropStart?_eq_some_iff _ _ _).mp found
  simp [browserProperties, knownProperties, ← String.toList_inj, whole]

theorem mem_pageProperties_iff {value : String} {property : List Char}
    (found : dropStart? "$page.".toList value.toList = some property) :
    String.ofList property ∈ pageProperties ↔ value ∈ knownProperties := by
  have whole := (dropStart?_eq_some_iff _ _ _).mp found
  simp [pageProperties, knownProperties, ← String.toList_inj, whole]

theorem fault?_of_sound {form : Form} {value : String} (member : form ∈ Form.sound)
    (read : form.reads value = true) : fault? value = none := by
  simp only [Form.sound, List.mem_cons, List.not_mem_nil, or_false] at member
  rcases member with rfl | rfl | rfl | rfl | rfl | rfl
  · have element : isElement value.toList = true := read
    simp [fault?, Identifier.isSingle, element]
  · have named : isAttribute value.toList = true := read
    simp [fault?, Identifier.isSingle, named]
  · have descends : isDescendantElement value.toList = true := read
    simp [fault?, descends]
  · have data : (Data.parameterName? value).isSome = true := read
    simp [fault?, data]
  · have environment : isEnvironment value.toList = true := read
    simp [fault?, environment]
  · have literal : isLiteral value.toList = true := read
    simp [fault?, literal]

theorem fault?_of_unsound {value : String} (unread : ∀ form ∈ Form.sound, form.reads value = false) :
    fault? value =
      match dropStart? "$browser.".toList value.toList, dropStart? "$page.".toList value.toList with
      | some property, _ =>
        if String.ofList property ∈ browserProperties then none else some .valuePropertyInvalid
      | none, some property =>
        if String.ofList property ∈ pageProperties then none else some .valuePropertyInvalid
      | none, none => some .valueInvalid := by
  simp only [Form.sound, List.forall_mem_cons, Form.reads, List.not_mem_nil, false_imp_iff,
    implies_true, and_true] at unread
  obtain ⟨element, named, descends, data, environment, literal⟩ := unread
  rw [fault?]
  refine (if_neg ?_).trans (if_neg ?_)
  · simp [Identifier.isSingle, element, named, descends]
  · simp [data, environment, literal]

theorem fault?_of_reads {form : Form} {value : String} (member : form ∈ Form.checked)
    (read : form.reads value = true) : fault? value = form.fault? value := by
  have others (other : Form) (different : form ≠ other) : other.reads value = false := by
    by_contra readOther
    exact different (Form.eq_of_reads read (by simpa using readOther))
  by_cases sound : form ∈ Form.sound
  · rw [fault?_of_sound sound read]
    cases form with
    | browser => simp [Form.sound] at sound
    | page => simp [Form.sound] at sound
    | _ => rfl
  · have unread : ∀ other ∈ Form.sound, other.reads value = false :=
      fun other member => others other (by rintro rfl; exact sound member)
    have property : form = .browser ∨ form = .page := by
      cases form <;> simp [Form.checked, Form.sound] at member sound ⊢
    rcases property with rfl | rfl
    · obtain ⟨property, found⟩ := Option.isSome_iff_exists.mp read
      simp only [fault?_of_unsound unread, found, mem_browserProperties_iff found, Form.fault?]
    · obtain ⟨property, found⟩ := Option.isSome_iff_exists.mp read
      have other : dropStart? "$browser.".toList value.toList = none := by
        simpa [Form.reads] using others .browser (by decide)
      simp only [fault?_of_unsound unread, other, found, mem_pageProperties_iff found, Form.fault?]

theorem fault?_of_unread {value : String} (unread : ∀ form ∈ Form.checked, form.reads value = false) :
    fault? value = some .valueInvalid := by
  have browser : dropStart? "$browser.".toList value.toList = none := by
    simpa only [Form.reads, Option.isSome_eq_false_iff, Option.isNone_iff_eq_none] using
      unread .browser (by decide)
  have page : dropStart? "$page.".toList value.toList = none := by
    simpa only [Form.reads, Option.isSome_eq_false_iff, Option.isNone_iff_eq_none] using
      unread .page (by decide)
  have unsound : ∀ form ∈ Form.sound, form.reads value = false :=
    fun form member => unread form (List.mem_append_left _ member)
  rw [fault?_of_unsound unsound, browser, page]

theorem check_eq_checkInOrder (value : String) : check value = checkInOrder Form.checked value := by
  rw [check, checkInOrder]
  cases found : Form.checked.find? (·.reads value) with
  | none =>
      have unread : ∀ form ∈ Form.checked, form.reads value = false := by
        simpa using List.find?_eq_none.mp found
      simp [fault?_of_unread unread, invalid]
  | some form =>
      obtain ⟨member, read⟩ := (find?_reads_eq_some_iff _ value form).mp found
      rw [fault?_of_reads member read]
      rfl

theorem check_eq_valid_iff (value : String) :
    check value = .valid (.value value) ↔ fault? value = none := by
  rw [check]
  cases fault? value <;> simp

theorem check_eq_invalid_iff (value : String) (reason : Reason) :
    check value = invalid value reason ↔ fault? value = some reason := by
  rw [check]
  cases fault? value <;> simp [invalid, Failure.of]

theorem reads_of_mem_knownProperties {value : String} (known : value ∈ knownProperties) :
    Form.browser.reads value = true ∨ Form.page.reads value = true := by
  simp only [knownProperties, List.mem_cons, List.not_mem_nil, or_false] at known
  rcases known with rfl | rfl | rfl
  · exact Or.inl (by decide)
  · exact Or.inr (by decide)
  · exact Or.inr (by decide)

theorem fault?_of_property {value : String}
    (property : Form.browser.reads value = true ∨ Form.page.reads value = true) :
    fault? value = if value ∈ knownProperties then none else some .valuePropertyInvalid := by
  rcases property with browser | page
  · exact fault?_of_reads (by decide) browser
  · exact fault?_of_reads (by decide) page

theorem fault?_cases (value : String) :
    ((∃ form ∈ Form.sound, form.reads value = true) ∧ fault? value = none) ∨
      ((Form.browser.reads value = true ∨ Form.page.reads value = true) ∧
        fault? value = if value ∈ knownProperties then none else some .valuePropertyInvalid) ∨
      ((∀ form ∈ Form.checked, form.reads value = false) ∧ fault? value = some .valueInvalid) := by
  by_cases sound : ∃ form ∈ Form.sound, form.reads value = true
  · obtain ⟨form, member, read⟩ := sound
    exact Or.inl ⟨⟨form, member, read⟩, fault?_of_sound member read⟩
  by_cases property : Form.browser.reads value = true ∨ Form.page.reads value = true
  · exact Or.inr (Or.inl ⟨property, fault?_of_property property⟩)
  have unread : ∀ form ∈ Form.checked, form.reads value = false := by
    intro form member
    rw [← Bool.not_eq_true]
    intro read
    rcases List.mem_append.mp member with inside | named
    · exact sound ⟨form, inside, read⟩
    · simp only [List.mem_cons, List.not_mem_nil, or_false] at named
      rcases named with rfl | rfl
      · exact property (Or.inl read)
      · exact property (Or.inr read)
  exact Or.inr (Or.inr ⟨unread, fault?_of_unread unread⟩)

theorem fault?_eq_none_iff (value : String) :
    fault? value = none ↔
      (∃ form ∈ Form.sound, form.reads value = true) ∨ value ∈ knownProperties := by
  constructor
  · intro faultless
    rcases fault?_cases value with ⟨sound, _⟩ | ⟨_, fault⟩ | ⟨_, fault⟩
    · exact Or.inl sound
    · exact Or.inr (by simpa [faultless] using fault)
    · simp [faultless] at fault
  · rintro (⟨form, member, read⟩ | known)
    · exact fault?_of_sound member read
    · rw [fault?_of_property (reads_of_mem_knownProperties known), if_pos known]

theorem fault?_eq_valuePropertyInvalid_iff (value : String) :
    fault? value = some .valuePropertyInvalid ↔
      (Form.browser.reads value = true ∨ Form.page.reads value = true) ∧ value ∉ knownProperties := by
  constructor
  · intro faulty
    rcases fault?_cases value with ⟨_, fault⟩ | ⟨property, fault⟩ | ⟨_, fault⟩
    · simp [faulty] at fault
    · refine ⟨property, fun known => ?_⟩
      simp [faulty, known] at fault
    · simp [faulty] at fault
  · rintro ⟨property, unknown⟩
    rw [fault?_of_property property, if_neg unknown]

theorem fault?_eq_valueInvalid_iff (value : String) :
    fault? value = some .valueInvalid ↔ ∀ form ∈ Form.checked, form.reads value = false := by
  constructor
  · intro faulty
    rcases fault?_cases value with ⟨_, fault⟩ | ⟨_, fault⟩ | ⟨unread, _⟩
    · simp [faulty] at fault
    · rw [faulty] at fault
      split at fault <;> simp at fault
    · exact unread
  · exact fault?_of_unread

theorem checkContent_eq (content : String) :
    checkContent content =
      if isDescendantAttribute content.toList then .valid (.value content) else check content := by
  by_cases named : isDescendantAttribute content.toList = true
  · simp [checkContent, Identifier.isAny, named]
  · by_cases value : (Identifier.isSingle content.toList || isDescendantElement content.toList) = true
    · have accepted : check content = .valid (.value content) :=
        (check_eq_valid_iff content).mpr (by simp only [fault?, value, ↓reduceIte])
      simp [checkContent, Identifier.isAny, named, value, accepted]
    · simp only [checkContent, Identifier.isAny, Bool.or_eq_true, value, named, or_self, Bool.false_eq_true,
        ↓reduceIte]

theorem fault?_of_isDescendantAttribute {value : String}
    (named : isDescendantAttribute value.toList = true) : fault? value = some .valueInvalid := by
  refine fault?_of_unread fun form member => ?_
  rw [← Bool.not_eq_true]
  intro read
  obtain rfl : form = .descendantAttribute := Form.eq_of_reads read named
  simp [Form.checked, Form.sound] at member

/-- A value has at most one form, so the order in which the forms are looked for does not matter: the
verdict is told by the form alone. The sides of assertions may be attributes below other elements,
which no value may be, and nothing else more. -/
theorem check_unambiguous (value : String) :
    (∀ first second : Form, first.reads value = true → second.reads value = true → first = second) ∧
      (∀ order : List Form, order.Perm Form.checked → checkInOrder order value = check value) ∧
      (check value = .valid (.value value) ↔
        (∃ form ∈ Form.sound, form.reads value = true) ∨ value ∈ knownProperties) ∧
      (check value = invalid value .valuePropertyInvalid ↔
        (Form.browser.reads value = true ∨ Form.page.reads value = true) ∧ value ∉ knownProperties) ∧
      (check value = invalid value .valueInvalid ↔
        ∀ form ∈ Form.checked, form.reads value = false) ∧
      (checkContent value ≠ check value ↔ Form.descendantAttribute.reads value = true) ∧
      (Form.descendantAttribute.reads value = true →
        checkContent value = .valid (.value value) ∧ check value = invalid value .valueInvalid) := by
  have refused (named : isDescendantAttribute value.toList = true) :
      check value = invalid value .valueInvalid :=
    (check_eq_invalid_iff value _).mpr (fault?_of_isDescendantAttribute named)
  refine ⟨fun first second => Form.eq_of_reads, ?_, ?_, ?_, ?_, ?_, ?_⟩
  · intro order permuted
    rw [check_eq_checkInOrder, checkInOrder_eq_of_perm permuted]
  · rw [check_eq_valid_iff, fault?_eq_none_iff]
  · rw [check_eq_invalid_iff, fault?_eq_valuePropertyInvalid_iff]
  · rw [check_eq_invalid_iff, fault?_eq_valueInvalid_iff]
  · rw [checkContent_eq]
    constructor
    · intro differs
      by_contra other
      exact differs (if_neg other)
    · intro named
      have named : isDescendantAttribute value.toList = true := named
      rw [if_pos named, refused named]
      simp [invalid]
  · intro named
    have named : isDescendantAttribute value.toList = true := named
    exact ⟨by rw [checkContent_eq, if_pos named], refused named⟩

theorem check_unambiguous_attribute :
    let value := "$form >> $\".a >> .b\":2 >> $\"input\".data-id"
    Form.checked.reverse.Perm Form.checked ∧
      checkInOrder Form.checked.reverse value = check value ∧
      Form.descendantAttribute.reads value = true ∧
      checkContent value = .valid (.value value) ∧ check value = invalid value .valueInvalid := by
  intro value
  obtain ⟨_, inOrder, _, _, _, _, content⟩ := check_unambiguous value
  have permuted := Form.checked.reverse_perm
  have named : Form.descendantAttribute.reads value = true := by decide +kernel
  exact ⟨permuted, inOrder _ permuted, named, content named⟩

end Value

end WebTestLint
