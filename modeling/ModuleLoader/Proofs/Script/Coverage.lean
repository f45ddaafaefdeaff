import Mathlib.Data.List.Induction
import Mathlib.Data.String.Basic
import ModuleLoader.Proofs.Script.Scanning

/-!
# Tokens cover their source

The tokens of a source stand in it one behind the other, and between them there are blanks and comments
only.  The spans are bytes that begin and end between characters, so that every piece of text a span
or two spans name is there.  Main statement: `tokens_cover`, what a reader of tokens gets from the
first one on, up to the end of the source and beyond.
-/

set_option autoImplicit false

namespace ModuleLoader.Script

open ModuleLoader.Text

/-! ## Pieces of a text by their bytes -/

/-- The text between two bytes, if there is one: both stand between characters, one not behind the
other. -/
def textBetween? (source : String) (first last : Nat) : Option String :=
  if first ≤ last ∧ String.Pos.Raw.IsValid source ⟨first⟩ ∧ String.Pos.Raw.IsValid source ⟨last⟩ then
    some (String.Pos.Raw.extract source ⟨first⟩ ⟨last⟩)
  else none

/-- The text from a byte on. -/
def textFrom? (source : String) (first : Nat) : Option String :=
  textBetween? source first source.utf8ByteSize

/-- A position behind whole characters is valid. -/
theorem isValid_of_toList {source : String} {front rest : List Char}
    (h : source.toList = front ++ rest) :
    String.Pos.Raw.IsValid source ⟨(String.ofList front).utf8ByteSize⟩ := by
  apply String.Pos.Raw.isValid_iff_exists_append.2
  refine ⟨String.ofList front, String.ofList rest, ?_, rfl⟩
  rw [← String.ofList_append, ← h, String.ofList_toList]

/-- The text between two positions is the piece that stands there. -/
theorem textBetween?_eq {source : String} {front piece rest : List Char}
    (h : source.toList = front ++ piece ++ rest) :
    textBetween? source (String.ofList front).utf8ByteSize
      (String.ofList (front ++ piece)).utf8ByteSize = some (String.ofList piece) := by
  have hle : (String.ofList front).utf8ByteSize ≤ (String.ofList (front ++ piece)).utf8ByteSize := by
    rw [String.ofList_append, String.utf8ByteSize_append]
    exact Nat.le_add_right _ _
  rw [textBetween?, if_pos ⟨hle, isValid_of_toList (h.trans (List.append_assoc _ _ _)),
    isValid_of_toList h⟩]
  have hextract := String.extract_of_valid front piece rest
  rw [← h, String.ofList_toList] at hextract
  rw [String.utf8ByteSize_ofList, String.utf8ByteSize_ofList, String.utf8Len_append, hextract]

/-- The text from a position on is the rest behind it. -/
theorem textFrom?_eq {source : String} {front rest : List Char}
    (h : source.toList = front ++ rest) :
    textFrom? source (String.ofList front).utf8ByteSize = some (String.ofList rest) := by
  have hwhole : source = String.ofList (front ++ rest) := by rw [← h, String.ofList_toList]
  have hbetween := textBetween?_eq (h.trans (List.append_nil (front ++ rest)).symm)
  rw [← hwhole] at hbetween
  exact hbetween

/-! ## What stands between tokens -/

/-- Blanks and comments.  A comment is closed by its line break or by its mark, only the last one of a
source may be left open. -/
inductive Gap (final : Prop) : List Char → Prop where
  | nil : Gap final []
  | space {c : Char} {cs : List Char} (h : isSpace c = true) (rest : Gap final cs) :
      Gap final (c :: cs)
  | line {text cs : List Char} (h : '\n' ∉ text) (rest : Gap final cs) :
      Gap final ('/' :: '/' :: (text ++ '\n' :: cs))
  | block {text cs : List Char} (h : ¬ ['*', '/'] <:+: text) (rest : Gap final cs) :
      Gap final ('/' :: '*' :: (text ++ '*' :: '/' :: cs))
  | openLine {text : List Char} (last : final) (h : '\n' ∉ text) : Gap final ('/' :: '/' :: text)
  | openBlock {text : List Char} (last : final) (h : ¬ ['*', '/'] <:+: text) :
      Gap final ('/' :: '*' :: text)

/-- What a scan passes over from some mode on: in a comment, behind any text that it may have begun
with. -/
def TriviaMode.Passes (final : Prop) : TriviaMode → List Char → Prop
  | .code, cs => Gap final cs
  | .line, cs => ∀ text, '\n' ∉ text → Gap final ('/' :: '/' :: (text ++ cs))
  | .block star, cs => ∀ text, ¬ ['*', '/'] <:+: text →
      (star = true ↔ text.getLast? = some '*') → Gap final ('/' :: '*' :: (text ++ cs))

/-- A text goes on without a closing mark if it had none, and if its last two characters are none. -/
theorem not_infix_concat {text : List Char} {c : Char} (h : ¬ ['*', '/'] <:+: text)
    (hc : text.getLast? = some '*' → c ≠ '/') : ¬ ['*', '/'] <:+: text ++ [c] := by
  rw [List.infix_concat_iff, not_or]
  refine ⟨?_, h⟩
  rintro ⟨front, hfront⟩
  rw [show ['*', '/'] = ['*'] ++ ['/'] from rfl, ← List.append_assoc] at hfront
  obtain ⟨hstar, hslash⟩ := List.append_inj' hfront rfl
  apply hc
  · rw [← hstar, List.getLast?_concat]
  · exact (List.singleton_inj.1 hslash).symm

/-- A character of a line comment is passed over, up to its line break. -/
theorem passes_line {final : Prop} {c : Char} {cs : List Char}
    (h : (if c = '\n' then TriviaMode.code else .line).Passes final cs) :
    TriviaMode.line.Passes final (c :: cs) := by
  intro text htext
  by_cases hc : c = '\n'
  · rw [if_pos hc] at h
    rw [hc]
    exact .line htext h
  · rw [if_neg hc] at h
    have hmore := h (text ++ [c]) (by simp [htext, Ne.symm hc])
    rwa [List.append_assoc] at hmore

/-- A character of a block comment is passed over, up to its end. -/
theorem passes_block {final : Prop} {star : Bool} {c : Char} {cs : List Char}
    (h : (if star && decide (c = '/') then TriviaMode.code else .block (decide (c = '*'))).Passes
      final cs) : (TriviaMode.block star).Passes final (c :: cs) := by
  intro text htext hstar
  by_cases hclose : star = true ∧ c = '/'
  · -- The asterisk before the slash has been read with the text.
    obtain ⟨rfl, rfl⟩ := hclose
    obtain ⟨front, rfl⟩ := List.getLast?_eq_some_iff.1 (hstar.1 rfl)
    rw [List.append_assoc]
    exact .block (fun hin => htext (hin.trans (List.infix_append_left))) h
  · rw [if_neg (by simpa using hclose)] at h
    have hmore := h (text ++ [c])
      (not_infix_concat htext fun hlast hslash => hclose ⟨hstar.2 hlast, hslash⟩) (by simp)
    rwa [List.append_assoc] at hmore

/-- What is passed over consists of blanks and comments. -/
theorem passes_trivia (mode : TriviaMode) (cs : List Char) :
    mode.Passes ((trivia mode cs).rest = []) (trivia mode cs).taken := by
  fun_induction trivia mode cs with
  | case1 mode =>
    cases mode with
    | code => exact .nil
    | line =>
      intro text htext
      rw [List.append_nil]
      exact .openLine rfl htext
    | block star =>
      intro text htext _
      rw [List.append_nil]
      exact .openBlock rfl htext
  | case2 c r ih => exact passes_line ih
  | case3 star c r ih => exact passes_block ih
  | case4 c hspace => exact .space hspace .nil
  | case5 => exact .nil
  | case6 c d r hspace ih => exact .space hspace ih
  | case7 c d r _ hslash ih =>
    simp only [Bool.and_eq_true, decide_eq_true_eq] at hslash
    rw [hslash.1, hslash.2]
    exact ih [] List.not_mem_nil
  | case8 c d r _ _ hstar ih =>
    simp only [Bool.and_eq_true, decide_eq_true_eq] at hstar
    rw [hstar.1, hstar.2]
    exact ih [] (by simp) (by simp)
  | case9 => exact .nil

/-! ## Numbers -/

/-- The numerals a token of a number comes to without its underscores: digits, or digits on both sides
of a point. -/
inductive DecimalNumeral : List Char → Prop where
  | whole {digits : List Char} (some : digits ≠ []) (all : ∀ c ∈ digits, isAsciiDigit c = true) :
      DecimalNumeral digits
  | pointed {digits fraction : List Char} (some : digits ≠ [])
      (all : ∀ c ∈ digits, isAsciiDigit c = true) (some' : fraction ≠ [])
      (all' : ∀ c ∈ fraction, isAsciiDigit c = true) : DecimalNumeral (digits ++ '.' :: fraction)

/-- A text without its underscores. -/
def withoutUnderscores (cs : List Char) : List Char := cs.filter (· != '_')

/-- The rest of a number holds digits and underscores, and one point before a digit, unless there was
one before. -/
theorem numberBody_plain (seen : Bool) (cs : List Char) :
    (∀ c ∈ withoutUnderscores (numberBody seen cs).taken, isAsciiDigit c = true) ∨
      seen = false ∧ ∃ digits fraction, (∀ c ∈ digits, isAsciiDigit c = true) ∧ fraction ≠ [] ∧
        (∀ c ∈ fraction, isAsciiDigit c = true) ∧
        withoutUnderscores (numberBody seen cs).taken = digits ++ '.' :: fraction := by
  fun_induction numberBody seen cs with
  | case1 => exact .inl (List.forall_mem_nil _)
  | case2 seen c r hc ih =>
    by_cases hline : c = '_'
    · rw [Cut.extend, List.singleton_append, withoutUnderscores, List.filter_cons_of_neg (by simp [hline])]
      exact ih
    · have hdigit : isAsciiDigit c = true := by simpa [hline] using hc
      rw [Cut.extend, List.singleton_append, withoutUnderscores,
        List.filter_cons_of_pos (by simpa using hline)]
      rcases ih with hall | ⟨hseen, digits, fraction, hdigits, hsome, hfraction, heq⟩
      · exact .inl (List.forall_mem_cons.2 ⟨hdigit, hall⟩)
      · refine .inr ⟨hseen, c :: digits, fraction, List.forall_mem_cons.2 ⟨hdigit, hdigits⟩, hsome,
          hfraction, ?_⟩
        rw [withoutUnderscores] at heq
        rw [heq, List.cons_append]
  | case3 seen c r hc hpoint ih =>
    simp only [Bool.and_eq_true, Bool.not_eq_true', decide_eq_true_eq] at hpoint
    obtain ⟨⟨rfl, hseen⟩, hnext⟩ := hpoint
    rw [Cut.extend, List.singleton_append, withoutUnderscores, List.filter_cons_of_pos (by decide)]
    -- The digit that must follow the point is the first of the fraction.
    cases r with
    | nil => cases hnext
    | cons d r =>
      have hdigit : isAsciiDigit d = true := hnext
      have hplain : d ≠ '_' := ne_of_class hdigit (by decide)
      have hsome : withoutUnderscores (numberBody true (d :: r)).taken ≠ [] := by
        simp [numberBody, hdigit, Cut.extend, withoutUnderscores, hplain]
      have hall := ih.resolve_right fun h => Bool.noConfusion h.1
      exact .inr ⟨hseen, [], _, List.forall_mem_nil _, hsome, hall, rfl⟩
  | case4 => exact .inl (List.forall_mem_nil _)

/-- The characters of a number are a numeral. -/
theorem decimalNumeral_number {c : Char} (h : isAsciiDigit c = true) (r : List Char) :
    DecimalNumeral (withoutUnderscores (c :: (numberBody false r).taken)) := by
  rw [withoutUnderscores, List.filter_cons_of_pos
    (by simpa using ne_of_class h (d := '_') (by decide))]
  rcases numberBody_plain false r with
    hall | ⟨-, digits, fraction, hdigits, hsome, hfraction, heq⟩
  · exact .whole (List.cons_ne_nil _ _) (List.forall_mem_cons.2 ⟨h, hall⟩)
  · rw [withoutUnderscores] at heq
    rw [heq]
    exact .pointed (List.cons_ne_nil _ _) (List.forall_mem_cons.2 ⟨h, hdigits⟩) hsome hfraction

/-! ## The word `declare-root` -/

/-- Whether a word that ends at a byte goes on with the second part of `declare-root`, from the text
behind the word and that behind both parts; nothing where one of these texts is not there. -/
def continuesAt? (source : String) (p : Nat) : Option Bool :=
  (textFrom? source p).bind fun rest =>
    if rootSuffix.isPrefixOf rest.toList then
      (textFrom? source (p + (String.ofList rootSuffix).utf8ByteSize)).map fun after =>
        !(after.toList.head?.any isIdContinue)
    else some false

/-- Whether a word goes on at a position is seen from the rest there. -/
theorem continuesAt?_eq {source : String} {front rest : List Char}
    (h : source.toList = front ++ rest) :
    continuesAt? source (String.ofList front).utf8ByteSize = some (continuesDeclareRoot rest) := by
  rw [continuesAt?, textFrom?_eq h, Option.bind_some, String.toList_ofList]
  by_cases hfollows : rootSuffix.isPrefixOf rest = true
  · obtain ⟨after, rfl⟩ := List.isPrefixOf_iff_prefix.1 hfollows
    have hbehind := textFrom?_eq (h.trans (List.append_assoc _ _ _).symm)
    rw [String.ofList_append, String.utf8ByteSize_append] at hbehind
    rw [if_pos hfollows, hbehind, continuesDeclareRoot, hfollows, List.drop_left]
    simp
  · rw [if_neg hfollows, continuesDeclareRoot]
    simp [hfollows]

/-! ## One token -/

/-- The column behind some characters, counted from one. -/
def columnBehind (cs : List Char) : Nat := (cs.reverse.takeWhile (· ≠ '\n')).length + 1

/-- The column behind a text is counted from its last line break. -/
theorem column_after (cs : List Char) : (Place.start.after cs).column = columnBehind cs := by
  induction cs using List.reverseRecOn with
  | nil => rfl
  | append_singleton cs c ih =>
    rw [Place.after_append, columnBehind, List.reverse_concat]
    show ((Place.start.after cs).step c).column = _
    by_cases hc : c = '\n'
    · rw [hc, List.takeWhile_cons_of_neg (by simp)]
      rfl
    · rw [List.takeWhile_cons_of_pos (by simpa using hc), Place.step, if_neg hc]
      exact congrArg (· + 1) ih

/-- What a token tells of its source, where the token before it ended at the byte `behind`. -/
structure Token.Covers (source : String) (behind : Nat) (t : Token) : Prop where
  /-- Blanks and comments stand before it, with a line break just if it says so. -/
  gap : ∃ text, textBetween? source behind t.span.place.offset = some text ∧
    Gap (t.kind = .finish) text.toList ∧ (t.newlineBefore = true ↔ '\n' ∈ text.toList)
  /-- Its line and column are those behind all text before it. -/
  place : ∃ text, textBetween? source 0 t.span.place.offset = some text ∧
    t.span.place.line = text.toList.count '\n' + 1 ∧
    t.span.place.column = columnBehind text.toList
  /-- It covers a text, which is a number if a digit begins it. -/
  piece : ∃ text, textBetween? source t.span.place.offset t.span.finish = some text ∧
    (text.toList.head?.any isAsciiDigit = true → t.kind = .number (numeralValue text.toList) ∧
      DecimalNumeral (withoutUnderscores text.toList))
  /-- The end of the source stands there, and every other token covers at least one byte. -/
  extent : if t.kind = .finish then
      t.span.place.offset = source.utf8ByteSize ∧ t.span.finish = source.utf8ByteSize
    else t.span.place.offset < t.span.finish
  /-- Behind the word `declare` the texts that decide about `declare-root` are there. -/
  root : ∀ text, textFrom? source t.span.place.offset = some text →
    text.toList.takeWhile isIdContinue = "declare".toList →
    continuesAt? source (t.span.place.offset + "declare".utf8ByteSize) =
      some (decide (t.kind = .declareRoot))

/-- What is left to scan is the end of a source, and the place is where it begins. -/
def Cursor.On (source : String) (c : Cursor) : Prop :=
  ∃ front, source.toList = front ++ c.rest ∧ c.place = Place.start.after front

/-- The scan begins at the start of the source. -/
theorem on_ofSource (source : String) : (Cursor.ofSource source).On source := ⟨[], rfl, rfl⟩

/-- The cursor stays on the source when it takes a token. -/
theorem Cursor.On.next {source : String} {c : Cursor} (h : c.On source) :
    (nextToken c).2.On source := by
  obtain ⟨front, hsource, hplace⟩ := h
  refine ⟨front ++ ((trivia .code c.rest).taken ++ (lexeme (trivia .code c.rest).rest).taken), ?_, ?_⟩
  · rw [hsource, List.append_assoc, List.append_assoc, ← rest_eq_nextToken]
  · rw [place_nextToken, hplace, Place.after_append Place.start front]

/-- The offset behind a text is its size in bytes. -/
theorem offset_start_after (cs : List Char) :
    (Place.start.after cs).offset = (String.ofList cs).utf8ByteSize := by
  rw [Place.offset_after]
  exact Nat.zero_add _

/-- The word `declare` is the first part of `declare-root` or an identifier. -/
theorem lexeme_declare {cs : List Char} (h : cs.takeWhile isIdContinue = "declare".toList) :
    ∃ rest, cs = "declare".toList ++ rest ∧
      decide ((lexeme cs).value = .declareRoot) = continuesDeclareRoot rest := by
  have hspelled : "declare".toList = 'd' :: "eclare".toList := by decide
  cases cs with
  | nil => cases h
  | cons c r =>
    have hc : isIdContinue c = true := by
      by_contra hneg
      rw [List.takeWhile_cons_of_neg hneg] at h
      cases h
    rw [List.takeWhile_cons_of_pos hc, hspelled] at h
    obtain ⟨rfl, htail⟩ := List.cons.inj h
    refine ⟨r.dropWhile isIdContinue, ?_, ?_⟩
    · rw [hspelled, ← htail, List.cons_append, List.takeWhile_append_dropWhile]
    · have hname : String.ofList ('d' :: "eclare".toList) = "declare" := rfl
      have hplain : Keyword.ofSpelling? "declare" = none := by decide
      show decide ((lexemeAt 'd' r).value = _) = _
      rw [lexemeAt_of_isIdStart (by decide), word]
      simp only [htail, hname, hplain, decide_true, Bool.true_and]
      cases continuesDeclareRoot (r.dropWhile isIdContinue) <;> rfl

/-- A token takes characters unless none are left. -/
theorem taken_lexeme_eq_nil {cs : List Char} : (lexeme cs).taken = [] ↔ cs = [] := by
  cases cs with
  | nil => exact Iff.rfl
  | cons c r =>
    obtain ⟨tail, htail⟩ := taken_lexemeAt c r
    rw [lexeme, htail]
    exact iff_of_false (List.cons_ne_nil _ _) (List.cons_ne_nil _ _)

/-- A token with a digit in front is the number that its characters denote. -/
theorem lexeme_number {cs : List Char}
    (h : (lexeme cs).taken.head?.any isAsciiDigit = true) :
    (lexeme cs).value = .number (numeralValue (lexeme cs).taken) ∧
      DecimalNumeral (withoutUnderscores (lexeme cs).taken) := by
  cases cs with
  | nil => cases h
  | cons c r =>
    obtain ⟨tail, htail⟩ := taken_lexemeAt c r
    have hc : isAsciiDigit c = true := by
      rw [lexeme, htail] at h
      exact h
    rw [lexeme, lexemeAt_of_isAsciiDigit hc]
    exact ⟨rfl, decimalNumeral_number hc r⟩

/-- A token that is read from the end of a source covers it from there on. -/
theorem Cursor.On.covers {source : String} {c : Cursor} (h : c.On source) :
    (nextToken c).1.Covers source c.place.offset := by
  obtain ⟨front, hsource, hplace⟩ := h
  obtain ⟨gap, text, hgap, htext, hwhole⟩ : ∃ gap text, (trivia .code c.rest).taken = gap ∧
      (trivia .code c.rest).rest = text ∧ c.rest = gap ++ text :=
    ⟨_, _, rfl, rfl, (whole_trivia .code c.rest).symm⟩
  have hfront : source.toList = front ++ gap ++ text := by
    rw [hsource, hwhole, List.append_assoc]
  have hpieces : source.toList = front ++ gap ++ (lexeme text).taken ++ (lexeme text).rest :=
    hfront.trans (by rw [List.append_assoc (front ++ gap)]; exact congrArg _ (whole_lexeme text).symm)
  have hkind : (nextToken c).1.kind = (lexeme text).value := by rw [← htext]; rfl
  have hstart : (nextToken c).1.span.place = Place.start.after (front ++ gap) := by
    rw [Place.after_append, ← hplace, ← hgap]
    rfl
  have hfinish : (nextToken c).1.span.finish =
      (String.ofList (front ++ gap ++ (lexeme text).taken)).utf8ByteSize := by
    rw [← offset_start_after, Place.after_append, ← hstart, ← htext]
    rfl
  have hbefore := @textBetween?_eq source [] _ _ hfront
  refine ⟨?gap, ?place, ?piece, ?extent, ?root⟩
  case gap =>
    rw [hplace, hstart, offset_start_after, offset_start_after, hkind]
    refine ⟨_, textBetween?_eq hfront, ?_, ?_⟩
    · have hpasses := passes_trivia .code c.rest
      rw [htext, hgap] at hpasses
      rw [String.toList_ofList, propext value_lexeme_eq_finish]
      exact hpasses
    · rw [String.toList_ofList, ← hgap, ← List.contains_iff_mem]
      rfl
  case place =>
    rw [hstart, offset_start_after]
    refine ⟨_, hbefore, ?_, ?_⟩
    · rw [String.toList_ofList, Place.line_after]
      exact Nat.add_comm _ _
    · rw [String.toList_ofList]
      exact column_after _
  case piece =>
    rw [hstart, offset_start_after, hfinish, hkind]
    refine ⟨_, textBetween?_eq hpieces, ?_⟩
    rw [String.toList_ofList]
    exact lexeme_number
  case extent =>
    rw [hstart, offset_start_after, hfinish, hkind]
    split
    · rename_i hend
      have hnil := value_lexeme_eq_finish.1 hend
      rw [taken_lexeme_eq_nil.2 hnil, List.append_nil, ← List.append_nil (front ++ gap), ← hnil,
        ← hfront, String.ofList_toList]
      exact ⟨rfl, rfl⟩
    · rename_i hmore
      have hsome : (lexeme text).taken ≠ [] := fun hnil =>
        hmore (value_lexeme_eq_finish.2 (taken_lexeme_eq_nil.1 hnil))
      have hsize : (String.ofList (lexeme text).taken).utf8ByteSize ≠ 0 := by
        simpa using hsome
      have hsplit : (String.ofList (front ++ gap ++ (lexeme text).taken)).utf8ByteSize =
          (String.ofList (front ++ gap)).utf8ByteSize +
            (String.ofList (lexeme text).taken).utf8ByteSize := by
        rw [String.ofList_append, String.utf8ByteSize_append]
      omega
  case root =>
    rw [hstart, offset_start_after, hkind, textFrom?_eq hfront]
    rintro _ ⟨rfl⟩ hword
    rw [String.toList_ofList] at hword
    obtain ⟨rest, hrest, hroot⟩ := lexeme_declare hword
    rw [hroot, ← String.ofList_toList (s := "declare"), ← String.utf8ByteSize_append,
      ← String.ofList_append]
    apply continuesAt?_eq
    rw [hfront, hrest, List.append_assoc (front ++ gap)]

/-! ## One token after the other -/

/-- What is left to scan when some tokens have been read. -/
def Cursor.behind (c : Cursor) : Nat → Cursor
  | 0 => c
  | n + 1 => (nextToken c).2.behind n

/-- The token read next when some tokens have been read, the end of the source any number of times. -/
def Cursor.token (c : Cursor) (n : Nat) : Token := (nextToken (c.behind n)).1

/-- The byte at which the token read last ended, or at which the source begins. -/
def Cursor.endBefore (c : Cursor) : Nat → Nat
  | 0 => c.place.offset
  | n + 1 => (c.token n).span.finish

/-- The cursor behind one more token is the next one. -/
theorem Cursor.behind_succ (c : Cursor) (n : Nat) :
    c.behind (n + 1) = (nextToken (c.behind n)).2 := by
  induction n generalizing c with
  | zero => rfl
  | succ n ih => exact ih (nextToken c).2

/-- The cursor behind some tokens is where the last of them ends. -/
theorem Cursor.offset_behind (c : Cursor) (n : Nat) :
    (c.behind n).place.offset = c.endBefore n := by
  cases n with
  | zero => rfl
  | succ n =>
    rw [behind_succ]
    rfl

/-- The cursor stays on the source when it takes several tokens. -/
theorem Cursor.On.behind {source : String} {c : Cursor} (h : c.On source) (n : Nat) :
    (c.behind n).On source := by
  induction n with
  | zero => exact h
  | succ n ih =>
    rw [behind_succ]
    exact ih.next

/-- Behind the end of a source is its end again. -/
theorem kind_token_of_nil {c : Cursor} (h : c.rest = []) (n : Nat) : (c.token n).kind = .finish := by
  induction n generalizing c with
  | zero =>
    show (lexeme (trivia .code c.rest).rest).value = .finish
    rw [h]
    rfl
  | succ n ih =>
    apply ih
    show (lexeme (trivia .code c.rest).rest).rest = []
    rw [h]
    rfl

/-- Nothing is left behind the finish. -/
theorem rest_of_finish {c : Cursor} (h : (nextToken c).1.kind = .finish) :
    (nextToken c).2.rest = [] := by
  show (lexeme (trivia .code c.rest).rest).rest = []
  rw [value_lexeme_eq_finish.1 h]
  rfl

/-- The end is read after at most one token for each character, and from there on. -/
theorem exists_count (c : Cursor) : ∃ count ≤ c.rest.length,
    (∀ n, (c.token n).kind = .finish ↔ count ≤ n) ∧
      tokensFrom c = (List.range (count + 1)).map c.token := by
  fun_induction tokensFrom c with
  | case1 c hfinish =>
    refine ⟨0, Nat.zero_le _, fun n => iff_of_true ?_ (Nat.zero_le n), rfl⟩
    cases n with
    | zero => exact hfinish
    | succ n => exact kind_token_of_nil (rest_of_finish hfinish) n
  | case2 c hmore ih =>
    obtain ⟨count, hcount, hkinds, htokens⟩ := ih
    have hshorter := nextToken_shorter c hmore
    refine ⟨count + 1, by omega, fun n => ?_, ?_⟩
    · cases n with
      | zero => exact iff_of_false hmore (Nat.not_succ_le_zero count)
      | succ n => exact (hkinds n).trans Nat.succ_le_succ_iff.symm
    · rw [htokens, List.range_succ_eq_map (n := count + 1), List.map_cons, List.map_map]
      rfl

/-- Reading tokens of a source comes to its end after at most one token for each character, and then
reads the end again and again; the tokens up to the first end are those that programs are parsed from.
Each token covers the source from the byte on at which the one before it ended. -/
theorem tokens_cover (source : String) :
    (∃ count ≤ source.length,
      (∀ n, ((Cursor.ofSource source).token n).kind = .finish ↔ count ≤ n) ∧
      tokens source = (List.range (count + 1)).map (Cursor.ofSource source).token) ∧
      ∀ n, ((Cursor.ofSource source).token n).Covers source ((Cursor.ofSource source).endBefore n) := by
  refine ⟨?count, ?covers⟩
  case count =>
    rw [← String.length_toList]
    exact exists_count (Cursor.ofSource source)
  case covers =>
    intro n
    rw [← (Cursor.ofSource source).offset_behind n]
    exact ((on_ofSource source).behind n).covers

end ModuleLoader.Script
