import TableAlgebra.Text.Width.Emoji

/-!
Characters that are drawn as one sign. A line is measured from its end: what
stands behind a character decides whether the character joins it, and how many
columns that adds or takes back.
-/
namespace TableAlgebra

/-- What stands behind a character, as far as a character can join it. `joined`
tells of a joiner between the two. -/
inductive Following where
  | other
  | arabicAlef
  | hebrewLamed (joined : Bool)
  | khmerLetter
  | bugineseYa (joined : Bool)
  | bugineseVowelYa
  | tifinaghConsonant (joined : Bool)
  | tifinaghPair
  | lisuTone
  | turkicI (joined : Bool)
  | kiratRaiE
  | kiratRaiAI
  | emoji
  | skinTone
  | flagLetter
  | flagLetters
  | joinedEmoji
  | joinedKeycap
  | joinedFlagLetter
  | joinedFlags
  | joinedFlagsAndLetter
  | tagLetters (count : Nat)
  | tagDigits (count : Nat)
deriving DecidableEq, Repr

namespace Following

def isLetter : Following → Bool
  | .arabicAlef | .hebrewLamed _ | .khmerLetter | .bugineseYa _ | .bugineseVowelYa
  | .tifinaghConsonant _ | .tifinaghPair | .lisuTone | .turkicI _ => true
  | _ => false

def bearsJoiner (following : Following) : Bool := following.isLetter && following != .arabicAlef

def join : Following → Following
  | .hebrewLamed _ => .hebrewLamed true
  | .bugineseYa _ => .bugineseYa true
  | .tifinaghConsonant _ => .tifinaghConsonant true
  | .turkicI _ => .turkicI true
  | following => following

def isJoinedEmoji : Following → Bool
  | .joinedEmoji | .joinedKeycap => true
  | _ => false

end Following

def isJoiner (c : Char) : Bool := c.toNat == 0x200D

def isArabicLam (c : Char) : Bool :=
  inRanges [(0x644, 0x644), (0x6B5, 0x6B8), (0x76A, 0x76A), (0x8A6, 0x8A6), (0x8C7, 0x8C7)] c

def isArabicAlef (c : Char) : Bool :=
  inRanges [(0x622, 0x623), (0x625, 0x625), (0x627, 0x627), (0x671, 0x673), (0x675, 0x675),
    (0x773, 0x774), (0x870, 0x882)] c

def isKhmerLetter (c : Char) : Bool :=
  inRanges [(0x1780, 0x1782), (0x1784, 0x1787), (0x1789, 0x178C), (0x178E, 0x1793),
    (0x1795, 0x1798), (0x179B, 0x179D), (0x17A0, 0x17A0), (0x17A2, 0x17A2), (0x17A7, 0x17A7),
    (0x17AB, 0x17AC), (0x17AF, 0x17AF)] c

def isTifinaghConsonant (c : Char) : Bool := within 0x2D31 0x2D65 c || c.toNat == 0x2D6F

def isTagLetter (c : Char) : Bool := within 0xE0061 0xE007A c
def isTagDigit (c : Char) : Bool := within 0xE0030 0xE0039 c

def standAlone (c : Char) : Int × Following :=
  if c.toNat ≤ 0xA0 then (1, .other)
  else if inRanges zeroWidthRanges c then (0, .other)
  else if isFlagLetter c then (1, .flagLetter)
  else if inRanges wideRanges c then
    (2, if isSkinTone c then .skinTone else if isColouredEmoji c then .emoji else .other)
  else if isArabicAlef c then (1, .arabicAlef)
  else if isKhmerLetter c then (1, .khmerLetter)
  else if isTifinaghConsonant c then (1, .tifinaghConsonant false)
  else
    match c.toNat with
    | 0x5DC => (1, .hebrewLamed false)
    | 0x17D8 => (3, .other)
    | 0x1A10 => (1, .bugineseYa false)
    | 0xA4FC | 0xA4FD => (1, .lisuTone)
    | 0x10C03 => (1, .turkicI false)
    | 0x16D67 => (1, .kiratRaiE)
    | 0x16D68 => (1, .kiratRaiAI)
    | _ => (1, .other)

def joinLetter? (c : Char) : Following → Option (Int × Following)
  | .arabicAlef =>
    if isArabicLam c then some (0, .other)
    else if isTransparent c then some (0, .arabicAlef)
    else none
  | .hebrewLamed true => if c.toNat = 0x5D0 then some (0, .other) else none
  | .khmerLetter => if c.toNat = 0x17D2 then some (-1, .other) else none
  | .bugineseYa true => if c.toNat = 0x1A17 then some (0, .bugineseVowelYa) else none
  | .bugineseVowelYa => if c.toNat = 0x1A15 then some (0, .other) else none
  | .tifinaghConsonant joined =>
    if c.toNat = 0x2D7F then some (1, .tifinaghPair)
    else if joined && isTifinaghConsonant c then some (0, .other)
    else none
  | .tifinaghPair => if isTifinaghConsonant c then some (-1, .other) else none
  | .lisuTone => if within 0xA4F8 0xA4FB c then some (0, .other) else none
  | .turkicI true => if c.toNat = 0x10C32 then some (0, .other) else none
  | .kiratRaiE =>
    match c.toNat with
    | 0x16D63 | 0x16D69 => some (0, .other)
    | 0x16D67 => some (0, .kiratRaiAI)
    | 0x16D68 => some (1, .kiratRaiE)
    | _ => none
  | .kiratRaiAI => if c.toNat = 0x16D63 then some (0, .other) else none
  | _ => none

/-- A part of an emoji in front of the part that it joins. Flags are paired from
the end of a run of letters; behind a joiner the first pair takes no column. -/
def joinEmoji? (c : Char) : Following → Option (Int × Following)
  | .skinTone =>
    if isModifierBase c then some (0, .emoji)
    else if isJoiner c then some (0, .joinedEmoji)
    else none
  | .flagLetter => if isFlagLetter c then some (1, .flagLetters) else none
  | .flagLetters =>
    if isFlagLetter c then some (1, .flagLetters)
    else if isJoiner c then some (0, .joinedEmoji)
    else none
  | .emoji => if isJoiner c then some (0, .joinedEmoji) else none
  | .joinedEmoji =>
    if c.toNat = 0x20E3 then some (0, .joinedKeycap)
    else if isFlagLetter c then some (1, .joinedFlagLetter)
    else if isSkinTone c then some (0, .skinTone)
    else if c.toNat = 0xE007F then some (0, .tagLetters 0)
    else if isColouredEmoji c then some (0, .emoji)
    else none
  | .joinedFlagLetter => if isFlagLetter c then some (-1, .joinedFlags) else none
  | .joinedFlags =>
    if isFlagLetter c then some (3, .joinedFlagsAndLetter)
    else if isJoiner c then some (0, .joinedEmoji)
    else none
  | .joinedFlagsAndLetter =>
    if isFlagLetter c then some (-1, .joinedFlags)
    else if isJoiner c then some (0, .joinedEmoji)
    else none
  | .tagLetters count =>
    if isTagLetter c && count < 6 then some (0, .tagLetters (count + 1))
    else if isTagDigit c && count ≤ 4 then some (0, .tagDigits 1)
    else if c.toNat = 0x1F3F4 && 3 ≤ count then some (0, .emoji)
    else none
  | .tagDigits count =>
    if isTagDigit c && count < 3 then some (0, .tagDigits (count + 1))
    else if c.toNat = 0x1F3F4 && count = 3 then some (0, .emoji)
    else none
  | _ => none

def standBefore (c : Char) (following : Following) : Int × Following :=
  if following.bearsJoiner && isJoiner c then (0, following.join)
  else if following.bearsJoiner && isIgnorableMark c then (0, following)
  else (joinLetter? c following <|> joinEmoji? c following).getD (standAlone c)

end TableAlgebra
