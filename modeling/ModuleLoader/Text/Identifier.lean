import ModuleLoader.Text.IdentifierTable

/-!
# Identifiers

Which characters an identifier may begin with and which it may hold, and the texts made of
them.  Both are told by two classes of characters, of which only a few facts are used; the classes
of Unicode are the instance, where ASCII is decided by direct comparison and all else by the
tables.  Main statement: `isIdContinue_of_isIdStart`, every first character may also stand later.
-/

set_option autoImplicit false

namespace ModuleLoader.Text

/-- Whether a code point lies in one of the inclusive ranges. -/
def inRanges (ranges : List (Nat × Nat)) (n : Nat) : Bool :=
  ranges.any fun r => r.1 ≤ n && n ≤ r.2

/-- Whether a character is a decimal digit of ASCII. -/
def isAsciiDigit (c : Char) : Bool := 48 ≤ c.val.toNat && c.val.toNat ≤ 57

/-- Whether a character is a letter of ASCII. -/
def isAsciiLetter (c : Char) : Bool :=
  (65 ≤ c.val.toNat && c.val.toNat ≤ 90) || (97 ≤ c.val.toNat && c.val.toNat ≤ 122)

/-- The characters that end a name: marks, quotes, the slash of comments, blanks and line breaks. -/
def separators : List Char :=
  ['.', '=', ';', ',', '(', ')', '\x7b', '\x7d', '-', '"', '\'', '/', ' ', '\t', '\r', '\n']

/-- The classes of characters that names are made of, with all that is used of them. -/
class XidClasses where
  /-- Whether a name may begin with the character. -/
  isXidStart : Char → Bool
  /-- Whether a name may hold the character. -/
  isXidContinue : Char → Bool
  isXidContinue_of_isXidStart : ∀ {c : Char}, isXidStart c = true → isXidContinue c = true
  isXidContinue_of_mem : ∀ {c : Char}, c ∈ separators → isXidContinue c = false
  isXidStart_of_isAsciiDigit : ∀ {c : Char}, isAsciiDigit c = true → isXidStart c = false

/-- The classes `XID_Start` and `XID_Continue` of Unicode. -/
instance unicode : XidClasses where
  isXidStart c :=
    if c.val.toNat < 128 then isAsciiLetter c else inRanges startRanges c.val.toNat
  isXidContinue c :=
    if c.val.toNat < 128 then isAsciiLetter c || isAsciiDigit c || c == '_'
    else inRanges startRanges c.val.toNat || inRanges continueRanges c.val.toNat
  isXidContinue_of_isXidStart {c} h := by
    split at h
    · rename_i hascii
      rw [if_pos hascii, h]
      rfl
    · rename_i hascii
      rw [if_neg hascii, h]
      rfl
  isXidContinue_of_mem {c} hc := by
    have hall : separators.all (fun c => decide (c.val.toNat < 128) &&
        !(isAsciiLetter c || isAsciiDigit c || c == '_')) = true := by decide
    have hhere := List.all_eq_true.1 hall c hc
    simp only [Bool.and_eq_true, decide_eq_true_eq, Bool.not_eq_true'] at hhere
    rw [if_pos hhere.1, hhere.2]
  isXidStart_of_isAsciiDigit {c} h := by
    simp only [isAsciiDigit, Bool.and_eq_true, decide_eq_true_eq] at h
    have hascii : c.val.toNat < 128 := by omega
    rw [if_pos hascii]
    simp only [isAsciiLetter, Bool.or_eq_false_iff, Bool.and_eq_false_iff, decide_eq_false_iff_not]
    omega

section

variable [XidClasses]

/-- An identifier begins with a letter of any script, an underscore or a dollar sign. -/
def isIdStart (c : Char) : Bool := c == '_' || c == '$' || XidClasses.isXidStart c

/-- After its first character an identifier also holds digits, marks, connectors and joiners. -/
def isIdContinue (c : Char) : Bool := c == '_' || c == '$' || XidClasses.isXidContinue c

/-- Whether the whole list of characters is one identifier. -/
def isIdentifierChars : List Char → Bool
  | [] => false
  | c :: cs => isIdStart c && cs.all isIdContinue

/-- Whether a text is an identifier. -/
def isIdentifier (s : String) : Bool := isIdentifierChars s.toList

/-- Every character that begins an identifier may also stand later in one. -/
theorem isIdContinue_of_isIdStart {c : Char} (h : isIdStart c) : isIdContinue c := by
  simp only [isIdStart, isIdContinue, Bool.or_eq_true] at h ⊢
  exact h.imp_right XidClasses.isXidContinue_of_isXidStart

/-- No identifier holds what ends a name. -/
theorem isIdContinue_of_mem_separators {c : Char} (hc : c ∈ separators) :
    isIdContinue c = false := by
  have hmarks : separators.all (fun c => !(c == '_' || c == '$')) = true := by decide
  have hhere := List.all_eq_true.1 hmarks c hc
  rw [isIdContinue, XidClasses.isXidContinue_of_mem hc, Bool.or_false]
  simpa using hhere

/-- No identifier begins with what ends a name. -/
theorem isIdStart_of_mem_separators {c : Char} (hc : c ∈ separators) : isIdStart c = false := by
  rw [Bool.eq_false_iff]
  intro hstart
  have hcontinue := isIdContinue_of_isIdStart hstart
  rw [isIdContinue_of_mem_separators hc] at hcontinue
  cases hcontinue

/-- No identifier begins with a digit. -/
theorem isIdStart_of_isAsciiDigit {c : Char} (h : isAsciiDigit c = true) : isIdStart c = false := by
  have hline : (c == '_') = false := by
    rw [beq_eq_false_iff_ne]
    rintro rfl
    cases h
  have hdollar : (c == '$') = false := by
    rw [beq_eq_false_iff_ne]
    rintro rfl
    cases h
  rw [isIdStart, hline, hdollar, XidClasses.isXidStart_of_isAsciiDigit h]
  rfl

/-- Every character of an identifier is one that it may hold. -/
theorem isIdContinue_of_mem {cs : List Char} (h : isIdentifierChars cs) {c : Char} (hc : c ∈ cs) :
    isIdContinue c := by
  cases cs with
  | nil => simp at hc
  | cons d ds =>
    simp only [isIdentifierChars, Bool.and_eq_true, List.all_eq_true] at h
    rcases List.mem_cons.1 hc with rfl | hd
    · exact isIdContinue_of_isIdStart h.1
    · exact h.2 c hd

end

end ModuleLoader.Text
