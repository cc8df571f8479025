import TableAlgebra.Text.Width.Ligature

namespace TableAlgebra

inductive Selector where
  | text
  | emoji
  | fullWidth
deriving DecidableEq, Repr

def selectorOf? (c : Char) : Option Selector :=
  match c.toNat with
  | 0xFE01 => some .fullWidth
  | 0xFE0E => some .text
  | 0xFE0F => some .emoji
  | _ => none

structure Behind where
  selectors : List Selector
  following : Following
deriving DecidableEq, Repr

namespace Behind

def nothing : Behind := ⟨[], .other⟩

/-- Only the character right before it can take the coloured form. Letters keep the
other selectors; anything else keeps none. -/
def dropEmoji (behind : Behind) : Behind :=
  if .emoji ∈ behind.selectors then
    if behind.following.isLetter then
      { behind with selectors := behind.selectors.filter (· != .emoji) }
    else nothing
  else behind

def select (selector : Selector) (behind : Behind) : Behind :=
  if behind.following.isLetter then { behind with selectors := selector :: behind.selectors }
  else if selector = .emoji ∧ behind.following.isJoinedEmoji then
    { behind with selectors := [selector] }
  else ⟨[selector], .other⟩

end Behind

def isQuotationMark (c : Char) : Bool := inRanges [(0x2018, 0x2019), (0x201C, 0x201D)] c

/-- The columns of a character in a form that a selector behind it asks for, if the
character has that form. -/
def selectedForm? (c : Char) (behind : Behind) : Option (Int × Following) :=
  if .emoji ∈ behind.selectors ∧ hasColouredForm c then
    some (if behind.following.isJoinedEmoji then 0 else 2, .emoji)
  else if .text ∈ behind.selectors ∧ hasNarrowForm c then some (1, .other)
  else if .fullWidth ∈ behind.selectors ∧ isQuotationMark c then some (2, .other)
  else none

def measureChar (c : Char) (behind : Behind) : Int × Behind :=
  match selectedForm? c behind with
  | some (width, following) => (width, ⟨[], following⟩)
  | none =>
    let behind := behind.dropEmoji
    match selectorOf? c with
    | some selector => (0, behind.select selector)
    | none =>
      let (width, following) := standBefore c behind.following
      (width, ⟨[], following⟩)

def measure : List Char → Int × Behind
  | [] => (0, .nothing)
  | c :: rest =>
    let (width, behind) := measure rest
    let (own, before) := measureChar c behind
    (own + width, before)

def displayWidth (line : List Char) : Nat := (measure line).1.toNat

end TableAlgebra
