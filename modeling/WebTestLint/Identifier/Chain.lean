import WebTestLint.Identifier.Basic

/-!
Chains of identifiers. ` >> ` joins an identifier to one below it. Inside quotes and inside braces the
joint is plain text, and a backslash takes the next character out of play.
-/

namespace WebTestLint.Identifier

structure Chain where
  head : List Char
  links : List (List Char)
deriving DecidableEq, Repr

def joint : List Char := " >> ".toList

namespace Chain

def segments (chain : Chain) : List (List Char) := chain.head :: chain.links

def extend (text : List Char) (chain : Chain) : Chain := { chain with head := text ++ chain.head }

def text (chain : Chain) : List Char := chain.head ++ chain.links.flatMap (joint ++ ·)

/-- Splits a text at each joint that stands outside quotes and outside braces, where `depth` counts
the open braces and `quoted` tells whether a quote is open. -/
def split (depth : Nat) (quoted : Bool) : List Char → Chain
  | [] => ⟨[], []⟩
  | '\\' :: c :: rest => (split depth quoted rest).extend ['\\', c]
  | '{' :: '{' :: rest => (split (depth + 1) quoted rest).extend ['{', '{']
  | '}' :: '}' :: rest => (split (depth - 1) quoted rest).extend ['}', '}']
  | '"' :: rest => (split depth (!quoted) rest).extend ['"']
  | ' ' :: '>' :: '>' :: ' ' :: rest =>
    if depth = 0 && !quoted then ⟨[], (split depth quoted rest).segments⟩
    else (split depth quoted rest).extend joint
  | c :: rest => (split depth quoted rest).extend [c]

def ofText (text : List Char) : Chain := split 0 false text

@[simp] theorem text_extend (front : List Char) (chain : Chain) :
    (chain.extend front).text = front ++ chain.text := by
  simp [extend, text]

theorem text_split (depth : Nat) (quoted : Bool) (text : List Char) :
    (split depth quoted text).text = text := by
  fun_induction split depth quoted text with
  | case1 => rfl
  | case2 => simp_all
  | case3 => simp_all
  | case4 => simp_all
  | case5 => simp_all
  | case6 depth quoted rest _ ih =>
    calc (Chain.mk [] (split depth quoted rest).segments).text
        = joint ++ (split depth quoted rest).text := by simp [Chain.text, segments]
      _ = _ := by rw [ih]; rfl
  | case7 depth quoted rest _ ih =>
    rw [text_extend, ih]
    rfl
  | case8 => simp_all

theorem text_ofText (text : List Char) : (ofText text).text = text := text_split 0 false text

theorem length_head_ofText_le (text : List Char) : (ofText text).head.length ≤ text.length := by
  have whole := congrArg List.length (text_ofText text)
  simp only [Chain.text, List.length_append] at whole
  omega

end Chain

end WebTestLint.Identifier
