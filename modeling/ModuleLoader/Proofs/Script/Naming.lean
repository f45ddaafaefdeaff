import ModuleLoader.Proofs.Script.Scanning

/-!
# Names and their tokens

Whether a text can be bound as a name is told from its characters; a script binds what the scanner
reads as an identifier.  The scanner asks in another order: it tries marks, quotes and digits before
names, takes as many characters as it can, and looks behind the word `declare`.  Main statement:
`tokens_eq_name_iff`, both agree on every text, by itself and in front of other text.
-/

set_option autoImplicit false

namespace ModuleLoader.Script

open ModuleLoader.Text

/-- The token of a name that stands at the front of a source and is read up to its end. -/
def nameToken (name : String) : Token :=
  ⟨.identifier name, ⟨Place.start, name.utf8ByteSize⟩, false⟩

/-- The end of a source that is a name and no more. -/
def endToken (name : String) : Token :=
  ⟨.finish, ⟨Place.start.after name.toList, name.utf8ByteSize⟩, false⟩

/-- Behind a name the offset is its size. -/
theorem offset_after_name (name : String) :
    (Place.start.after name.toList).offset = name.utf8ByteSize := by
  rw [Place.offset_after, String.ofList_toList]
  exact Nat.zero_add _

section

variable [XidClasses]

/-! ## Tokens of names are names -/

/-- A word that is a name is an identifier and no keyword. -/
theorem bindable_of_word {first : Char} {cs : List Char} {name : String}
    (hfirst : isIdStart first = true) (h : (word first cs).value = .identifier name) :
    isIdentifier name = true ∧ isKeyword name = false := by
  unfold word at h
  simp only at h
  split at h
  · cases h
  · split at h
    · cases h
    · rename_i hplain
      cases h
      constructor
      · rw [isIdentifier, String.toList_ofList, isIdentifierChars, hfirst, Bool.true_and]
        exact List.all_takeWhile
      · rw [isKeyword, hplain]
        rfl

/-- The scanner reads nothing as an identifier but identifiers that are not reserved. -/
theorem bindable_of_lexeme {cs : List Char} {name : String}
    (h : (lexeme cs).value = .identifier name) :
    isIdentifier name = true ∧ isKeyword name = false := by
  cases cs with
  | nil => cases h
  | cons c r =>
    simp only [lexeme, lexemeAt] at h
    split at h
    · cases h
    · split at h
      · change stringToken (stringBody c r).value = .identifier name at h
        unfold stringToken at h
        split at h <;> cases h
      · split at h
        · cases h
        · split at h
          · rename_i hstart
            exact bindable_of_word hstart h
          · cases h

/-- A source that begins with a name begins with an identifier that is no keyword. -/
theorem bindable_of_head (source : String) {name : String}
    (h : (tokens source).head? = some (nameToken name)) :
    isIdentifier name = true ∧ isKeyword name = false := by
  rw [tokens, tokensFrom_cons, List.head?_cons, Option.some.injEq] at h
  exact bindable_of_lexeme (congrArg Token.kind h)

/-! ## Names are read as their tokens -/

variable {name : String}

/-- A name is the first token of a text in which it ends, and nothing else of it matters. -/
theorem tokens_of_endsWord (hname : isIdentifier name = true) (hplain : isKeyword name = false)
    {behind : List Char} (h : EndsWord behind) :
    tokens (name ++ String.ofList behind) =
      nameToken name :: tokensFrom ⟨behind, Place.start.after name.toList⟩ := by
  obtain ⟨htrivia, hpiece⟩ := lexeme_of_isIdentifier hname h
  rw [wordKind_of_not_isKeyword hplain] at hpiece
  have hnext : nextToken ⟨name.toList ++ behind, Place.start⟩ =
      (nameToken name, ⟨behind, Place.start.after name.toList⟩) := by
    simp only [nextToken, htrivia, hpiece, nameToken, ← offset_after_name]
    rfl
  have hmore : (nameToken name).kind ≠ .finish := by
    intro h
    cases h
  rw [tokens, Cursor.ofSource, String.toList_append, String.toList_ofList, tokensFrom_cons, hnext,
    if_neg hmore]

/-- A name by itself is one token and the end. -/
theorem tokens_name (hname : isIdentifier name = true) (hplain : isKeyword name = false) :
    tokens name = [nameToken name, endToken name] := by
  have hall := tokens_of_endsWord hname hplain endsWord_nil
  rw [String.ofList_nil, String.append_empty, tokensFrom_cons] at hall
  rw [hall, endToken, ← offset_after_name]
  rfl

end

/-- A text is an identifier that is not reserved just when it is read as the one token of that name,
from its first byte to its last, with nothing between it and the end; and just when this token comes
first as well wherever a blank, a semicolon or a point stands behind the text, whatever follows.  Of
the classes of characters no more is used than `XidClasses` says; those of Unicode are an instance. -/
theorem tokens_eq_name_iff [XidClasses] (name : String) :
    ((isIdentifier name = true ∧ isKeyword name = false) ↔
      tokens name = [nameToken name, endToken name]) ∧
    ((isIdentifier name = true ∧ isKeyword name = false) ↔
      ∀ stop ∈ [' ', ';', '.'], ∀ behind : List Char,
        (tokens (name ++ String.ofList (stop :: behind))).head? = some (nameToken name)) := by
  refine ⟨⟨fun ⟨hname, hplain⟩ => tokens_name hname hplain, fun h => ?_⟩,
    fun ⟨hname, hplain⟩ stop hstop behind => ?_, fun h => ?_⟩
  · apply bindable_of_head name
    rw [h]
    rfl
  · have hends : stop ∈ separators ∧ stop ≠ '-' := by
      simp only [List.mem_cons, List.not_mem_nil, or_false] at hstop
      rcases hstop with rfl | rfl | rfl <;> decide
    rw [tokens_of_endsWord hname hplain
      (endsWord_cons (isIdContinue_of_mem_separators hends.1) hends.2 behind)]
    rfl
  · exact bindable_of_head _ (h ' ' List.mem_cons_self [])

-- The word `declare` is a name, and it stays one behind which a hyphen and another word stand.
example : tokens "declare" = [nameToken "declare", endToken "declare"] ∧
    (tokens "declare-rooted").head? = some (nameToken "declare") ∧
    (tokens "declare-root").head? ≠ some (nameToken "declare") := by decide +kernel

end ModuleLoader.Script
