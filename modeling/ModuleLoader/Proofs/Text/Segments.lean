import ModuleLoader.Text.Blank
import ModuleLoader.Text.Identifier
import ModuleLoader.Text.Segments

/-!
# Joined texts

Joined texts are cut where they were joined and where each of them has the separator itself.  A text
that no blank and no separator occurs in, as is the case with identifiers, comes out as it went in.
Main statement: `splitOnChar_intercalate`.
-/

set_option autoImplicit false

namespace ModuleLoader.Text

/-! ## Cutting -/

/-- A text that is cut at a separator has the pieces in front of it and those behind it. -/
theorem splitChars_append (sep : Char) (cs ds : List Char) :
    splitChars sep (cs ++ sep :: ds) = splitChars sep cs ++ splitChars sep ds := by
  induction cs with
  | nil => simp [splitChars]
  | cons c cs ih =>
    by_cases hc : c = sep
    · simp [splitChars, hc, ih]
    · rw [List.cons_append, splitChars, if_neg hc, splitChars, if_neg hc, ih]
      cases hpieces : splitChars sep cs with
      | nil => exact absurd hpieces (splitChars_ne_nil sep cs)
      | cons piece pieces => rfl

/-- A text without the separator is one piece. -/
theorem splitChars_of_not_mem {sep : Char} {cs : List Char} (h : sep ∉ cs) :
    splitChars sep cs = [cs] := by
  induction cs with
  | nil => rfl
  | cons c cs ih =>
    rw [List.mem_cons, not_or] at h
    rw [splitChars, if_neg (Ne.symm h.1), ih h.2]

/-- The pieces of joined texts are the pieces of each of them. -/
theorem splitOnChar_intercalate (sep : Char) {texts : List String} (h : texts ≠ []) :
    splitOnChar sep ((String.singleton sep).intercalate texts) =
      texts.flatMap (splitOnChar sep) := by
  induction texts with
  | nil => exact absurd rfl h
  | cons text texts ih =>
    cases texts with
    | nil => simp
    | cons next texts =>
      rw [String.intercalate_cons_cons, List.flatMap_cons, ← ih (by simp)]
      simp only [splitOnChar, String.toList_append, String.toList_singleton, List.append_assoc,
        List.singleton_append, splitChars_append, List.map_append]

/-! ## Trimming -/

/-- A text without blanks keeps its front. -/
theorem dropBlanks_of_not_isBlank {cs : List Char} (h : ∀ c ∈ cs, isBlank c = false) :
    dropBlanks cs = cs := by
  cases cs with
  | nil => rfl
  | cons c cs => simp [dropBlanks, h c List.mem_cons_self]

/-- A text without blanks is left as it is. -/
theorem trim_of_not_isBlank {s : String} (h : ∀ c ∈ s.toList, isBlank c = false) : trim s = s := by
  have hreverse : ∀ c ∈ s.toList.reverse, isBlank c = false := by simpa using h
  rw [trim, trimChars, dropBlanks_of_not_isBlank h, dropBlanks_of_not_isBlank hreverse,
    List.reverse_reverse, String.ofList_toList]

/-! ## Identifiers -/

/-- No blank occurs in an identifier. -/
theorem not_isIdContinue_of_isBlank {c : Char} (h : isBlank c = true) : isIdContinue c = false := by
  have hall : ∀ n ∈ [9, 10, 11, 12, 13, 0x20, 0x85, 0xA0, 0x1680, 0x2000, 0x2001, 0x2002, 0x2003,
      0x2004, 0x2005, 0x2006, 0x2007, 0x2008, 0x2009, 0x200A, 0x2028, 0x2029, 0x202F, 0x205F, 0x3000],
      isIdContinue (Char.ofNat n) = false := by decide +kernel
  rw [← Char.ofNat_toNat c]
  apply hall
  show c.val.toNat ∈ _
  simp only [isBlank, Bool.or_eq_true, Bool.and_eq_true, decide_eq_true_eq, beq_iff_eq] at h
  simp only [List.mem_cons, List.not_mem_nil, or_false]
  omega

/-- An identifier has no blanks. -/
theorem not_isBlank_of_isIdentifier {name : String} (h : isIdentifier name = true) :
    ∀ c ∈ name.toList, isBlank c = false := by
  intro c hc
  rw [← Bool.not_eq_true]
  intro hblank
  have hcontinue := isIdContinue_of_mem h hc
  rw [not_isIdContinue_of_isBlank hblank] at hcontinue
  cases hcontinue

end ModuleLoader.Text
