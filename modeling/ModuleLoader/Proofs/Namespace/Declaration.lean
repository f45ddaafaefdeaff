import Mathlib.Data.List.TakeWhile
import ModuleLoader.Proofs.Namespace.Preamble
import ModuleLoader.Proofs.Script.Spelling
import ModuleLoader.Proofs.Text.Segments

/-!
# Which roots are found in a text

Declarations are searched for from left to right and do not overlap, but no root is lost to that: a
declaration that begins within another one names no root.  The parser allows for more ways to write a
declaration than the search: comments, and blanks before the opening parenthesis, and escapes in the
path.  Main statements: `mem_declaredRoots_iff`, a root is found if it is named at some place of the
text, and `exists_declaration?_iff`, which of the ways to write a declaration are found.
-/

set_option autoImplicit false

namespace ModuleLoader.Namespace

open ModuleLoader.Script ModuleLoader.Text

/-! ## Blanks -/

/-- Leaving out the blanks of a text leads to its first other character. -/
theorem dropBlanks_append {bs : List Char} (h : ∀ c ∈ bs, isBlank c = true) {c : Char}
    (hc : isBlank c = false) (cs : List Char) : dropBlanks (bs ++ c :: cs) = c :: cs :=
  (takeWhile_stop h hc cs).2

/-- Blanks stand before what is left of a text without them. -/
theorem exists_blanks (cs : List Char) :
    ∃ bs, (∀ c ∈ bs, isBlank c = true) ∧ cs = bs ++ dropBlanks cs :=
  ⟨cs.takeWhile isBlank, fun _ => List.mem_takeWhile_imp, List.takeWhile_append_dropWhile.symm⟩

/-- What is blank between tokens is blank between the parts of a declaration. -/
theorem isBlank_of_isSpace {c : Char} (h : isSpace c = true) : isBlank c = true := by
  simp only [isSpace, Bool.or_eq_true, decide_eq_true_eq] at h
  rcases h with ((rfl | rfl) | rfl) | rfl <;> rfl

/-- What is passed over between tokens is blank, or has a comment behind its first blanks. -/
theorem blank_or_comment {gap : List Char} (h : Skips gap) : (∀ c ∈ gap, isBlank c = true) ∨
    ∃ bs rest, (∀ c ∈ bs, isBlank c = true) ∧ gap = bs ++ '/' :: rest := by
  induction gap with
  | nil => exact .inl nofun
  | cons c gap ih =>
    rcases h.head with hspace | rfl
    · have hblank := isBlank_of_isSpace hspace
      rcases ih (h.of_cons hspace) with hall | ⟨bs, rest, hbs, rfl⟩
      · exact .inl (List.forall_mem_cons.2 ⟨hblank, hall⟩)
      · exact .inr ⟨c :: bs, rest, List.forall_mem_cons.2 ⟨hblank, hbs⟩, rfl⟩
    · exact .inr ⟨[], gap, nofun, rfl⟩

/-! ## Declarations within declarations -/

/-- What a declaration at the front of a text is made of. -/
theorem eq_of_declaration? {cs path rest : List Char} (h : declaration? cs = some (path, rest)) :
    ∃ before quote quote' after,
      cs = declarationHead ++ (before ++ quote :: (path ++ quote' :: (after ++ ')' :: rest))) ∧
      (∀ c ∈ before, isBlank c = true) ∧ isQuote quote = true ∧ (∀ c ∈ path, isQuote c = false) ∧
      isQuote quote' = true ∧ ∀ c ∈ after, isBlank c = true := by
  unfold declaration? at h
  split at h
  · rename_i hprefix
    obtain ⟨cs, rfl⟩ := List.isPrefixOf_iff_prefix.1 hprefix
    rw [List.drop_left] at h
    obtain ⟨before, hbefore, hcs⟩ := exists_blanks cs
    split at h
    · cases h
    · rename_i quote r hquote
      have hr : r = r.takeWhile (!isQuote ·) ++ r.dropWhile (!isQuote ·) :=
        List.takeWhile_append_dropWhile.symm
      split at h
      · cases h
      · rename_i quote' r' hquote'
        obtain ⟨after, hafter, hr'⟩ := exists_blanks r'
        have hclosing : isQuote quote' = true := by
          have hfirst := List.head_dropWhile_not (!isQuote ·) (l := r) (by simp [hquote'])
          simpa [hquote'] using hfirst
        split at h
        · cases h
        · rename_i c rest' hrest
          split at h
          · rename_i hall
            simp only [Bool.and_eq_true, beq_iff_eq] at hall
            cases h
            refine ⟨before, quote, quote', after, ?_, hbefore, hall.1.1, fun c hc => ?_, hclosing,
              hafter⟩
            · rw [hquote] at hcs
              rw [hquote'] at hr
              rw [hrest, hall.2] at hr'
              rw [← hr', ← hr, ← hcs]
            · simpa using List.mem_takeWhile_imp hc
          · cases h
  · cases h

/-- A text that begins with some characters and goes on from one that is none of them. -/
theorem exists_of_append_eq {as bs front t : List Char} {c : Char} (h : as ++ bs = front ++ c :: t)
    (hc : c ∉ as) : ∃ more, front = as ++ more ∧ bs = more ++ c :: t := by
  rcases List.append_eq_append_iff.1 h with ⟨more, hfront, hbs⟩ | ⟨x, has, hx⟩
  · exact ⟨more, hfront, hbs⟩
  · cases x with
    | nil => exact ⟨[], by simp [has], hx.symm⟩
    | cons d x =>
      obtain ⟨rfl, -⟩ := List.cons.inj hx
      exact absurd (has ▸ List.mem_append_right _ List.mem_cons_self) hc

/-- No blank begins an identifier. -/
theorem not_isIdStart_of_isBlank {c : Char} (h : isBlank c = true) : isIdStart c = false := by
  rw [← Bool.not_eq_true]
  intro hstart
  have hcontinue := isIdContinue_of_isIdStart hstart
  rw [not_isIdContinue_of_isBlank h] at hcontinue
  cases hcontinue

/-- The first character of an identifier begins one. -/
theorem exists_isIdStart {cs : List Char} (h : isIdentifier (rootOf cs) = true) :
    ∃ c rest, cs = c :: rest ∧ isIdStart c = true := by
  rw [rootOf, isIdentifier, String.toList_ofList] at h
  cases cs with
  | nil => cases h
  | cons c cs =>
    rw [List.takeWhile_cons] at h
    split at h
    · rw [isIdentifierChars, Bool.and_eq_true] at h
      exact ⟨c, cs, rfl, h.1⟩
    · cases h

/-- A text without quotes ends at the quote behind it. -/
theorem takeWhile_quote {cs : List Char} (h : ∀ c ∈ cs, isQuote c = false) {quote : Char}
    (hquote : isQuote quote = true) (rest : List Char) :
    (cs ++ quote :: rest).takeWhile (!isQuote ·) = cs ∧
      (cs ++ quote :: rest).dropWhile (!isQuote ·) = quote :: rest :=
  takeWhile_stop (by simpa using h) (by simpa using hquote) rest

/-- A blank is no quote. -/
theorem isQuote_of_isBlank {c : Char} (h : isBlank c = true) : isQuote c = false := by
  rw [← Bool.not_eq_true]
  intro hquote
  simp only [isQuote, Bool.or_eq_true, beq_iff_eq] at hquote
  rcases hquote with rfl | rfl <;> cases h

/-- A quote is no blank. -/
theorem isBlank_of_isQuote {c : Char} (h : isQuote c = true) : isBlank c = false := by
  rw [← Bool.not_eq_true]
  intro hblank
  rw [isQuote_of_isBlank hblank] at h
  cases h

/-- A declaration that begins within another one begins in the path of that one, which its own
opening quote ends. -/
theorem within_path {cs front inner path path' rest rest' : List Char}
    (h : declaration? cs = some (path, rest)) (h' : declaration? inner = some (path', rest'))
    (hcs : cs = front ++ inner) (hfront : front ≠ []) (hlong : rest.length < inner.length) :
    ∃ after more, (∀ c ∈ after, isBlank c = true) ∧ after ++ ')' :: rest = path' ++ more := by
  obtain ⟨before, quote, quote', after, rfl, hbefore, hquote, hpath, hquote', hafter⟩ :=
    eq_of_declaration? h
  obtain ⟨before', opening, closing, after', hinner, hbefore', hopening, -⟩ := eq_of_declaration? h'
  obtain ⟨t, ht⟩ : ∃ t, inner = 'd' :: t := ⟨_, hinner⟩
  have hblank : ∀ {bs : List Char}, (∀ c ∈ bs, isBlank c = true) → 'd' ∉ bs := by
    intro bs hbs hmem
    exact absurd (hbs 'd' hmem) (by decide)
  have hnot_quote : ∀ {q : Char}, isQuote q = true → 'd' ≠ q := by
    rintro q hq rfl
    exact absurd hq (by decide)
  -- It begins behind the opening quote of the other one,
  obtain ⟨behind, hbehind⟩ : ∃ behind,
      path ++ quote' :: (after ++ ')' :: rest) = behind ++ inner := by
    obtain ⟨c, front, rfl⟩ := List.exists_cons_of_ne_nil hfront
    have hhead : declarationHead = 'd' :: "eclare-root(".toList := rfl
    rw [hhead, List.cons_append, List.cons_append, List.cons.injEq] at hcs
    have hskip : "eclare-root(".toList ++ (before ++ [quote]) ++
        (path ++ quote' :: (after ++ ')' :: rest)) = front ++ 'd' :: t := by
      rw [← ht, ← hcs.2]
      simp
    have hnot : 'd' ∉ "eclare-root(".toList ++ (before ++ [quote]) := by
      simp only [List.mem_append, List.mem_singleton, not_or]
      exact ⟨by decide, hblank hbefore, hnot_quote hquote⟩
    obtain ⟨behind, -, hrest⟩ := exists_of_append_eq hskip hnot
    exact ⟨behind, ht ▸ hrest⟩
  -- and before the closing one.
  rcases List.append_eq_append_iff.1 hbehind with ⟨x, -, hx⟩ | ⟨x, hx, hx'⟩
  · exfalso
    have hskip : (quote' :: (after ++ [')'])) ++ rest = x ++ 'd' :: t := by
      rw [← ht, ← hx]
      simp
    have hnot : 'd' ∉ quote' :: (after ++ [')']) := by
      simp only [List.mem_cons, List.mem_append, List.not_mem_nil, or_false, not_or]
      exact ⟨hnot_quote hquote', hblank hafter, by decide⟩
    obtain ⟨more, -, hrest⟩ := exists_of_append_eq hskip hnot
    rw [← ht] at hrest
    rw [hrest, List.length_append] at hlong
    omega
  · have hfree : ∀ c ∈ x, isQuote c = false := fun c hc =>
      hpath c (hx ▸ List.mem_append_right _ hc)
    have hfree' : ∀ c ∈ declarationHead ++ before', isQuote c = false := by
      have hhead : declarationHead.all (!isQuote ·) = true := by decide
      rw [List.forall_mem_append]
      exact ⟨by simpa using hhead, fun c hc => isQuote_of_isBlank (hbefore' c hc)⟩
    have hdrop := congrArg (List.dropWhile (!isQuote ·)) (hinner.symm.trans hx')
    rw [← List.append_assoc, (takeWhile_quote hfree' hopening _).2,
      (takeWhile_quote hfree hquote' _).2] at hdrop
    exact ⟨after, _, hafter, (List.cons.inj hdrop).2.symm⟩

/-- A declaration that begins within another one names no root, since its path begins with a blank
or a parenthesis. -/
theorem not_isIdentifier_of_within {cs front inner path path' rest rest' : List Char}
    (h : declaration? cs = some (path, rest)) (h' : declaration? inner = some (path', rest'))
    (hcs : cs = front ++ inner) (hfront : front ≠ []) (hlong : rest.length < inner.length) :
    isIdentifier (rootOf path') = false := by
  obtain ⟨after, more, hafter, heq⟩ := within_path h h' hcs hfront hlong
  rw [← Bool.not_eq_true]
  intro hroot
  obtain ⟨c, path', rfl, hstart⟩ := exists_isIdStart hroot
  cases after with
  | nil =>
    obtain ⟨rfl, -⟩ := List.cons.inj heq
    cases hstart
  | cons d after =>
    obtain ⟨rfl, -⟩ := List.cons.inj heq
    rw [not_isIdStart_of_isBlank (hafter d List.mem_cons_self)] at hstart
    cases hstart

/-! ## All declarations -/

/-- A path that is found is declared somewhere in the text. -/
theorem exists_of_mem_declarations {cs path : List Char} (h : path ∈ declarations cs) :
    ∃ front inner rest, cs = front ++ inner ∧ declaration? inner = some (path, rest) := by
  fun_induction declarations cs with
  | case1 cs path' rest' hfirst ih =>
    rcases List.mem_cons.1 h with rfl | h
    · exact ⟨[], cs, rest', rfl, hfirst⟩
    · obtain ⟨front, inner, rest, rfl, hinner⟩ := ih h
      obtain ⟨before, quote, quote', after, hcs, -⟩ := eq_of_declaration? hfirst
      refine ⟨declarationHead ++ (before ++ quote :: (path' ++ quote' :: (after ++ ')' :: front))),
        inner, rest, ?_, hinner⟩
      rw [hcs]
      simp
  | case2 => cases h
  | case3 c cs hnone ih =>
    obtain ⟨front, inner, rest, rfl, hinner⟩ := ih h
    exact ⟨c :: front, inner, rest, rfl, hinner⟩

/-- A path whose root is an identifier is found wherever it is declared. -/
theorem mem_declarations {front inner path rest : List Char}
    (h : declaration? inner = some (path, rest)) (hroot : isIdentifier (rootOf path) = true) :
    path ∈ declarations (front ++ inner) := by
  generalize hcs : front ++ inner = cs
  fun_induction declarations cs generalizing front with
  | case1 cs path' rest' hfirst ih =>
    by_cases hfront : front = []
    · rw [hfront, List.nil_append] at hcs
      rw [hcs, hfirst] at h
      cases h
      exact List.mem_cons_self
    · by_cases hlong : rest'.length < inner.length
      · rw [not_isIdentifier_of_within hfirst h hcs.symm hfront hlong] at hroot
        cases hroot
      · -- What is left behind the first declaration holds the other one.
        obtain ⟨before, quote, quote', after, hwhole, -⟩ := eq_of_declaration? hfirst
        have hsuffix : inner <:+ rest' := by
          apply List.suffix_of_suffix_length_le ⟨front, hcs⟩ _ (by omega)
          refine ⟨declarationHead ++ (before ++ quote :: (path' ++ quote' :: (after ++ [')']))), ?_⟩
          rw [hwhole]
          simp
        obtain ⟨front', hfront'⟩ := hsuffix
        exact List.mem_cons_of_mem _ (ih hfront')
  | case2 hnone =>
    obtain ⟨-, rfl⟩ := List.append_eq_nil_iff.1 hcs
    rw [hnone] at h
    cases h
  | case3 c cs hnone ih =>
    cases front with
    | nil =>
      rw [List.nil_append] at hcs
      rw [hcs, hnone] at h
      cases h
    | cons d front => exact ih (List.cons.inj hcs).2

/-- A declaration that stands behind some characters of a text names a root. -/
def NamedAt (source : String) (front : List Char) (name : String) : Prop :=
  ∃ inner path rest, source.toList = front ++ inner ∧ declaration? inner = some (path, rest) ∧
    rootOf path = name

/-- The roots found in a text are the root names that are named at some place of it, whether the
declarations overlap or not. -/
theorem mem_declaredRoots_iff {source name : String} :
    name ∈ declaredRoots source ↔ isRootName name = true ∧ ∃ front, NamedAt source front name := by
  rw [mem_declaredRoots, List.mem_map, and_comm]
  apply and_congr_right
  intro hname
  constructor
  · rintro ⟨path, hpath, rfl⟩
    obtain ⟨front, inner, rest, hsource, hinner⟩ := exists_of_mem_declarations hpath
    exact ⟨front, inner, path, rest, hsource, hinner, rfl⟩
  · rintro ⟨front, inner, path, rest, hsource, hinner, rfl⟩
    have hidentifier : isIdentifier (rootOf path) = true := by
      simp only [isRootName, Bool.and_eq_true] at hname
      exact hname.1.1
    rw [hsource]
    exact ⟨path, mem_declarations hinner hidentifier, rfl⟩

/-! ## Paths -/

/-- The first piece of a text stands before the first separator. -/
theorem headD_splitChars (sep : Char) (cs : List Char) :
    (splitChars sep cs).headD [] = cs.takeWhile (· != sep) := by
  induction cs with
  | nil => rfl
  | cons c cs ih =>
    unfold splitChars
    by_cases hc : c = sep
    · simp [hc]
    · rw [if_neg hc, List.takeWhile_cons_of_pos (by simpa using hc)]
      cases hs : splitChars sep cs with
      | nil => exact absurd hs (splitChars_ne_nil sep cs)
      | cons piece pieces =>
        rw [hs] at ih
        exact congrArg (c :: ·) ih

/-- The first segment of a path is the root that its declaration names. -/
theorem headD_splitOnChar (path : String) :
    (splitOnChar '.' path).headD "" = rootOf path.toList := by
  unfold splitOnChar rootOf
  rw [← headD_splitChars]
  cases splitChars '.' path.toList <;> rfl

/-- A character that is no separator is in one of the pieces. -/
theorem mem_splitChars {sep c : Char} {cs : List Char} (h : c ∈ cs) (hne : c ≠ sep) :
    ∃ piece ∈ splitChars sep cs, c ∈ piece := by
  induction cs with
  | nil => cases h
  | cons d cs ih =>
    unfold splitChars
    split
    · rename_i hd
      rcases List.mem_cons.1 h with rfl | h
      · exact absurd hd hne
      · obtain ⟨piece, hpiece, hmem⟩ := ih h
        exact ⟨piece, List.mem_cons_of_mem _ hpiece, hmem⟩
    · split
      · rename_i hs
        exact absurd hs (splitChars_ne_nil sep cs)
      · rename_i first pieces hs
        rw [hs] at ih
        rcases List.mem_cons.1 h with rfl | h
        · exact ⟨c :: first, List.mem_cons_self, List.mem_cons_self⟩
        · obtain ⟨piece, hpiece, hmem⟩ := ih h
          rcases List.mem_cons.1 hpiece with rfl | hpiece
          · exact ⟨d :: piece, List.mem_cons_self, List.mem_cons_of_mem _ hmem⟩
          · exact ⟨piece, List.mem_cons_of_mem _ hpiece, hmem⟩

section

variable {path : String} (h : isDeclarable path = true)

include h

/-- The root of a path that can be declared can be bound. -/
theorem bindable_of_isDeclarable : Bindable (rootOf path.toList) := by
  simp only [isDeclarable, Bool.and_eq_true, Bool.not_eq_true', List.all_eq_true] at h
  rw [← headD_splitOnChar]
  cases hs : splitOnChar '.' path with
  | nil =>
    rw [splitOnChar, List.map_eq_nil_iff] at hs
    exact absurd hs (splitChars_ne_nil _ _)
  | cons root segments =>
    rw [hs] at h
    exact ⟨h.2 root List.mem_cons_self, h.1⟩

/-- The root of a path that can be declared is a root unless it is the name that units bind the
holder to. -/
theorem isRootName_iff_of_isDeclarable :
    isRootName (rootOf path.toList) = true ↔ rootOf path.toList ≠ scopeBinding := by
  obtain ⟨hidentifier, hkeyword⟩ := bindable_of_isDeclarable h
  simp [isRootName, hidentifier, hkeyword]

/-- A path that can be declared has no quotes. -/
theorem not_isQuote_of_isDeclarable : ∀ c ∈ path.toList, isQuote c = false := by
  intro c hc
  rw [← Bool.not_eq_true]
  intro hquote
  simp only [isDeclarable, Bool.and_eq_true, List.all_eq_true] at h
  have hne : c ≠ '.' := by
    rintro rfl
    cases hquote
  obtain ⟨piece, hpiece, hmem⟩ := mem_splitChars hc hne
  have hidentifier := h.2 _ (List.mem_map_of_mem hpiece)
  rw [isIdentifier, String.toList_ofList] at hidentifier
  have hcontinue := isIdContinue_of_mem hidentifier hmem
  simp only [isQuote, Bool.or_eq_true, beq_iff_eq] at hquote
  rcases hquote with rfl | rfl
  · exact absurd hcontinue (by decide)
  · exact absurd hcontinue (by decide)

end

/-! ## Spellings -/

/-- A spelling that the search finds with its root: no blank before the opening parenthesis, only
blanks within the parentheses, and no escape in the root. -/
structure IsPlain {path : String} (d : Spelling path) : Prop where
  gap : d.gap = []
  inner : ∀ c ∈ d.inner, isBlank c = true
  outer : ∀ c ∈ d.outer, isBlank c = true
  root : '\\' ∉ d.raw.takeWhile (· != '.')

/-- A declaration is found where its parts stand, with blanks only inside the brackets. -/
theorem declaration?_of_parts {before path after rest : List Char} {quote quote' : Char}
    (hbefore : ∀ c ∈ before, isBlank c = true) (hquote : isQuote quote = true)
    (hpath : ∀ c ∈ path, isQuote c = false) (hne : path ≠ []) (hquote' : isQuote quote' = true)
    (hafter : ∀ c ∈ after, isBlank c = true) :
    declaration? (declarationHead ++
      (before ++ quote :: (path ++ quote' :: (after ++ ')' :: rest)))) = some (path, rest) := by
  have hhead : ∀ cs, declarationHead.isPrefixOf (declarationHead ++ cs) = true := fun cs =>
    List.isPrefixOf_iff_prefix.2 (List.prefix_append _ _)
  have hopening := isBlank_of_isQuote hquote
  have hclosing : isBlank ')' = false := by decide
  obtain ⟨htake, hdrop⟩ := takeWhile_quote hpath hquote' (after ++ ')' :: rest)
  rw [declaration?, if_pos (hhead _), List.drop_left, dropBlanks_append hbefore hopening]
  simp only [htake, hdrop, dropBlanks_append hafter hclosing, hquote]
  simp [hne]

/-- What begins with what is passed over, and goes on with neither a blank nor a slash, can begin
with blanks and something other than a slash only if all that is passed over is blank. -/
theorem blank_of_append_eq {gap bs cs ds : List Char} {c d : Char} (hgap : Skips gap)
    (hc : isBlank c = false) (hbs : ∀ b ∈ bs, isBlank b = true) (hd : isBlank d = false)
    (hslash : d ≠ '/') (h : gap ++ c :: cs = bs ++ d :: ds) :
    (∀ b ∈ gap, isBlank b = true) ∧ c :: cs = d :: ds := by
  have hdrop := congrArg dropBlanks h
  rw [dropBlanks_append hbs hd] at hdrop
  rcases blank_or_comment hgap with hblank | ⟨blanks, rest, hblanks, rfl⟩
  · rw [dropBlanks_append hblank hc] at hdrop
    exact ⟨hblank, hdrop⟩
  · have hcomment : isBlank '/' = false := by decide
    rw [List.append_assoc, List.cons_append, dropBlanks_append hblanks hcomment] at hdrop
    exact absurd (List.cons.inj hdrop).1.symm hslash

/-- A path is written between quotes. -/
theorem isQuote_of_quote {path : String} (d : Spelling path) : isQuote d.quote = true := by
  rcases d.quote_eq with h | h <;> rw [h] <;> rfl

/-- A path that can be declared has no quote, so none is written in it, not even behind a backslash. -/
theorem not_isQuote_of_mem_raw {path : String} (h : isDeclarable path = true) (d : Spelling path) :
    ∀ c ∈ d.raw, isQuote c = false := by
  intro c hc
  rw [← Bool.not_eq_true]
  intro hquote
  have hkept : c ≠ '\\' ∧ unescape c = c := by
    simp only [isQuote, Bool.or_eq_true, beq_iff_eq] at hquote
    rcases hquote with rfl | rfl <;> decide
  have hmem := d.literal.mem hc hkept.1 hkept.2
  rw [not_isQuote_of_isDeclarable h c hmem] at hquote
  cases hquote

/-- A spelling is found where it stands, and with the root that it declares, if it is plain; any other
one is not found there, or with another root. -/
theorem exists_declaration?_iff {path : String} (h : isDeclarable path = true) (d : Spelling path)
    (after : List Char) :
    (∃ path' rest, declaration? (d.text ++ after) = some (path', rest) ∧
      rootOf path' = rootOf path.toList) ↔ IsPlain d := by
  have hhead : declarationHead = "declare-root".toList ++ ['('] := by decide
  have hquote := isQuote_of_quote d
  have hraw := not_isQuote_of_mem_raw h d
  have hroot := (bindable_of_isDeclarable h).1
  rw [d.text_append]
  constructor
  · rintro ⟨path', rest, hfound, hsame⟩
    obtain ⟨before, quote, quote', after', hparts, hbefore, hopening, hpath', hclosing, hafter'⟩ :=
      eq_of_declaration? hfound
    rw [hhead, List.append_assoc, List.append_cancel_left_eq] at hparts
    have hparenthesis : isBlank '(' = false ∧ isBlank ')' = false := by decide
    obtain ⟨-, hinside⟩ := blank_of_append_eq d.skips_gap hparenthesis.1
      (List.forall_mem_nil _) hparenthesis.1 (by decide) hparts
    have hgap : d.gap = [] := by
      rw [hinside] at hparts
      simpa using hparts
    have hslash : quote ≠ '/' := by
      rintro rfl
      exact absurd hopening (by decide)
    obtain ⟨hinner, hliteral⟩ := blank_of_append_eq d.skips_inner (isBlank_of_isQuote hquote) hbefore
      (isBlank_of_isQuote hopening) hslash (List.cons.inj hinside).2
    have hbody := (List.cons.inj hliteral).2
    have htake := congrArg (List.takeWhile (!isQuote ·)) hbody
    have hdrop := congrArg (List.dropWhile (!isQuote ·)) hbody
    rw [(takeWhile_quote hraw hquote _).1, (takeWhile_quote hpath' hclosing _).1] at htake
    rw [(takeWhile_quote hraw hquote _).2, (takeWhile_quote hpath' hclosing _).2] at hdrop
    obtain ⟨houter, -⟩ := blank_of_append_eq d.skips_outer hparenthesis.2 hafter' hparenthesis.2
      (by decide) (List.cons.inj hdrop).2
    refine ⟨hgap, hinner, houter, fun hmem => ?_⟩
    rw [← hsame, rootOf, isIdentifier, String.toList_ofList, ← htake] at hroot
    exact absurd (isIdContinue_of_mem hroot hmem) (by decide)
  · intro hplain
    have hne : d.raw ≠ [] := by
      intro hnil
      obtain ⟨c, cs, hpath, -⟩ := exists_isIdStart hroot
      have hliteral := d.literal
      rw [hnil, hpath] at hliteral
      cases hliteral
    refine ⟨d.raw, after, ?_, ?_⟩
    · rw [hplain.gap, List.nil_append, ← List.singleton_append, ← List.append_assoc, ← hhead]
      exact declaration?_of_parts hplain.inner hquote hraw hne hquote hplain.outer
    · rw [rootOf, rootOf, d.literal.takeWhile_eq hplain.root (by decide)]

end ModuleLoader.Namespace
