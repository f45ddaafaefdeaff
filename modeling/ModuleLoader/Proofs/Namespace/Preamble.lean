import ModuleLoader.Configuration.Basic
import ModuleLoader.Namespace.Scope
import ModuleLoader.Proofs.Script.Scanning

/-!
# The preamble of a unit

Every line of the preamble binds one name: an alias to the object that holds the roots, or a root to
its property of that object.  The names are identifiers that are not reserved, so each line scans and
parses as it was meant, and the body behind the lines parses as it does by itself.  Main statement:
`wrap_transparent`, the preamble changes nothing of a body but the places of its statements and errors.
-/

set_option autoImplicit false

namespace ModuleLoader.Script

/-! ## Bindings -/

/-- The kinds of the tokens that bind a name to a path. -/
def bindingKinds (name : String) (path : Path) : List TokenKind :=
  [.keyword .var, .identifier name, .mark .equal, .identifier path.head] ++
    (path.properties.flatMap fun property => [.mark .dot, .identifier property]) ++
    [.mark .semicolon]

/-- Property names with dots before them are read as the rest of a path, if no dot follows. -/
theorem pathTail_of_kinds (finish : Token) {properties : List String} {ts : List Token}
    (h : ts.map (·.kind) = properties.flatMap fun property => [.mark .dot, .identifier property])
    {t : Token} (ht : t.kind ≠ .mark .dot) (rest : List Token) :
    pathTail finish (ts ++ t :: rest) = .ok (properties, t :: rest) := by
  induction properties generalizing ts with
  | nil =>
    rw [List.flatMap_nil, List.map_eq_nil_iff] at h
    rw [h, List.nil_append]
    cases rest with
    | nil => simp [pathTail, ht]
    | cons u rest => simp [pathTail, ht]
  | cons property properties ih =>
    rw [List.flatMap_cons] at h
    obtain ⟨d, ts, rfl, hd, h⟩ := List.map_eq_cons_iff.1 h
    obtain ⟨u, ts, rfl, hu, h⟩ := List.map_eq_cons_iff.1 h
    simp only [List.cons_append, pathTail, hd, if_true, hu, ih h]

/-- Tokens that bind a name to a path are read as that binding. -/
theorem statements_binding (finish : Token) {name : String} {path : Path} {ts : List Token}
    (h : ts.map (·.kind) = bindingKinds name path) (rest : List Token) :
    ∃ span, statements finish (ts ++ rest) =
      match statements finish rest with
      | .ok others => .ok (⟨.var name (.path path), span⟩ :: others)
      | .error e => .error e := by
  obtain ⟨word, ts, rfl, hword, h⟩ := List.map_eq_cons_iff.1 h
  obtain ⟨bound, ts, rfl, hbound, h⟩ := List.map_eq_cons_iff.1 h
  obtain ⟨equal, ts, rfl, hequal, h⟩ := List.map_eq_cons_iff.1 h
  obtain ⟨head, ts, rfl, hhead, h⟩ := List.map_eq_cons_iff.1 h
  obtain ⟨tail, last, rfl, htail, hlast⟩ := List.map_eq_append_iff.1 h
  obtain ⟨semicolon, ts, rfl, hsemicolon, hnil⟩ := List.map_eq_cons_iff.1 hlast
  rw [List.map_eq_nil_iff] at hnil
  have hdot : semicolon.kind ≠ .mark .dot := by simp [hsemicolon]
  have hpath := pathTail_of_kinds finish htail hdot rest
  have hexpression : expression finish (head :: (tail ++ semicolon :: rest)) =
      .ok (.path path, semicolon :: rest) := by
    simp only [expression, hhead, pathAfter, hpath]
  have hstatement : statement finish (word :: bound :: equal :: head :: (tail ++ semicolon :: rest)) =
      .ok (⟨.var name (.path path), word.span⟩, rest) := by
    simp only [statement, action, hword, binding, hbound, current, List.headD_cons, hequal, if_true,
      List.tail_cons, hexpression, statementEnd, hsemicolon]
  have hcons := statements_cons finish word (bound :: equal :: head :: (tail ++ semicolon :: rest))
  rw [if_neg (by simp [hword]), hstatement] at hcons
  refine ⟨word.span, ?_⟩
  rw [hnil]
  simp only [List.cons_append, List.append_assoc, List.nil_append]
  exact hcons

/-- A text that begins with a binding is read as the binding and what follows it. -/
theorem programFrom_binding {cs rest : List Char} {name : String} {path : Path}
    (h : Lexes cs (bindingKinds name path) rest) (p : Place) :
    ∃ consumed span, cs = consumed ++ rest ∧ programFrom ⟨cs, p⟩ =
      match programFrom ⟨rest, p.after consumed⟩ with
      | .ok others => .ok (⟨.var name (.path path), span⟩ :: others)
      | .error e => .error e := by
  obtain ⟨consumed, ts, hcs, hkinds, htokens⟩ := h.tokensFrom p
  obtain ⟨others, finish, hothers, -, -⟩ := tokensFrom_concat ⟨rest, p.after consumed⟩
  obtain ⟨span, hstatements⟩ := statements_binding finish hkinds others
  refine ⟨consumed, span, hcs, ?_⟩
  rw [hothers, ← List.append_assoc] at htokens
  rw [programFrom_of_tokens htokens, programFrom_of_tokens hothers]
  exact hstatements

end ModuleLoader.Script

namespace ModuleLoader.Namespace

open ModuleLoader.Script ModuleLoader.Text

/-! ## Lines -/

/-- A name that a line of the preamble may bind. -/
def Bindable (name : String) : Prop := isIdentifier name = true ∧ isKeyword name = false

/-- The name that units bind the holder to can be bound. -/
theorem bindable_scopeBinding : Bindable scopeBinding := by
  constructor
  · decide
  · decide

/-- A line binds a name to a path, wherever it stands. -/
def Binds (line : String) (name : String) (path : Path) : Prop :=
  ∀ gap rest, Skips gap → Lexes (gap ++ (line.toList ++ rest)) (bindingKinds name path) rest

/-- The scan passes over a blank. -/
theorem skips_blank : Skips [' '] := skips_space (by decide)

/-- A line binds a name if what it says after the name of the scope reads the properties. -/
theorem Lexes.binding {name : String} (hname : Bindable name) {gap cs rest : List Char}
    (hgap : Skips gap) {stop : Char} (hstop : isIdContinue stop = false) (hhyphen : stop ≠ '-')
    {kinds : List TokenKind} (next : Lexes (stop :: cs) kinds rest) :
    Lexes (gap ++ ("var ".toList ++ (name.toList ++ (" = ".toList ++
        (scopeBinding.toList ++ stop :: cs)))))
      (.keyword .var :: .identifier name :: .mark .equal :: .identifier scopeBinding :: kinds)
      rest := by
  have hscope : Lexes ([' '] ++ (scopeBinding.toList ++ stop :: cs))
      (.identifier scopeBinding :: kinds) rest := by
    rw [← wordKind_of_not_isKeyword bindable_scopeBinding.2]
    exact .word skips_blank bindable_scopeBinding.1 hstop hhyphen next
  have hequal := Lexes.mark skips_blank .equal hscope
  have hbound : Lexes ([' '] ++ (name.toList ++ ' ' ::
      (Mark.equal.char :: ([' '] ++ (scopeBinding.toList ++ stop :: cs)))))
      (.identifier name :: .mark .equal :: .identifier scopeBinding :: kinds) rest := by
    rw [← wordKind_of_not_isKeyword hname.2]
    exact .word skips_blank hname.1 (by decide) (by decide) hequal
  have hvar : isIdentifier "var" = true := by decide
  exact .word hgap hvar (by decide) (by decide) hbound

/-- The line of an alias binds it to the holder. -/
theorem binds_aliasLine {name : String} (h : Bindable name) :
    Binds (aliasLine name) name ⟨scopeBinding, []⟩ := by
  intro gap rest hgap
  have hend := Lexes.mark skips_nil .semicolon (.done rest)
  have hline := Lexes.binding h hgap (by decide) (by decide) hend
  have htext : (aliasLine name).toList ++ rest = "var ".toList ++ (name.toList ++ (" = ".toList ++
      (scopeBinding.toList ++ Mark.semicolon.char :: rest))) := by
    simp only [aliasLine, String.toList_append, List.append_assoc]
    rfl
  rw [htext]
  exact hline

/-- The line of a root binds it to its container. -/
theorem binds_rootLine {root : String} (h : Bindable root) :
    Binds (rootLine root) root ⟨scopeBinding, [root]⟩ := by
  intro gap rest hgap
  have hend := Lexes.mark skips_nil .semicolon (.done rest)
  have hroot := Lexes.word skips_nil h.1 (by decide) (by decide) hend
  rw [wordKind_of_not_isKeyword h.2] at hroot
  have hline := Lexes.binding h hgap (by decide) (by decide) (Lexes.mark skips_nil .dot hroot)
  have htext : (rootLine root).toList ++ rest = "var ".toList ++ (root.toList ++ (" = ".toList ++
      (scopeBinding.toList ++ Mark.dot.char :: (root.toList ++ Mark.semicolon.char :: rest)))) := by
    simp only [rootLine, String.toList_append, List.append_assoc]
    rfl
  rw [htext]
  exact hline

/-! ## All lines -/

/-- The characters of some lines, each with its line break. -/
def linesChars (lines : List String) : List Char := lines.flatMap fun line => line.toList ++ ['\n']

/-- The characters of lines are those of the first, its end, and those of the others. -/
theorem linesChars_cons (line : String) (lines : List String) :
    linesChars (line :: lines) = line.toList ++ '\n' :: linesChars lines := by
  rw [linesChars, List.flatMap_cons, List.append_assoc]
  rfl

/-- The text of lines has the characters of the lines. -/
theorem toList_linesText (lines : List String) : (linesText lines).toList = linesChars lines := by
  rw [linesText, String.toList_join, List.flatMap_map, linesChars]
  simp [String.toList_append]

/-- Lines that bind names are read as these bindings, and what follows them as by itself. -/
theorem programFrom_lines {lines : List String} {bound : List (String × Path)}
    (h : List.Forall₂ (fun line b => Binds line b.1 b.2) lines bound) {gap : List Char}
    (hgap : Skips gap) (cs : List Char) (p : Place) :
    ∃ front : Program, front.map (·.action) = bound.map (fun b => .var b.1 (.path b.2)) ∧
      programFrom ⟨gap ++ (linesChars lines ++ cs), p⟩ =
        match programFrom ⟨cs, p.after (gap ++ linesChars lines)⟩ with
        | .ok program => .ok (front ++ program)
        | .error e => .error e := by
  induction h generalizing gap p with
  | nil =>
    refine ⟨[], rfl, ?_⟩
    simp only [linesChars, List.flatMap_nil, List.nil_append, List.append_nil]
    rw [programFrom_skip hgap]
    cases programFrom ⟨cs, p.after gap⟩ <;> rfl
  | @cons line b lines bound hline hlines ih =>
    obtain ⟨consumed, span, hcs, hprogram⟩ :=
      programFrom_binding (hline gap (['\n'] ++ (linesChars lines ++ cs)) hgap) p
    obtain ⟨front, hfront, hrest⟩ := ih skips_lineBreak (p.after consumed)
    have hconsumed : consumed = gap ++ line.toList := by
      rw [← List.append_assoc] at hcs
      exact (List.append_cancel_right hcs).symm
    have htext : gap ++ (linesChars (line :: lines) ++ cs) =
        gap ++ (line.toList ++ (['\n'] ++ (linesChars lines ++ cs))) := by
      rw [linesChars_cons, List.append_assoc]
      rfl
    have hplace : p.after (gap ++ linesChars (line :: lines)) =
        (p.after consumed).after (['\n'] ++ linesChars lines) := by
      rw [hconsumed, ← Place.after_append, linesChars_cons, List.append_assoc]
      rfl
    refine ⟨⟨.var b.1 (.path b.2), span⟩ :: front, ?_, ?_⟩
    · rw [List.map_cons, List.map_cons, hfront]
    · rw [htext, hprogram, hrest, hplace]
      cases programFrom ⟨cs, (p.after consumed).after (['\n'] ++ linesChars lines)⟩ <;> rfl

/-- An identifier has no line break. -/
theorem not_mem_of_isIdentifier {name : String} (h : isIdentifier name = true) :
    '\n' ∉ name.toList := by
  intro hmem
  have hcontinue := isIdContinue_of_mem h hmem
  revert hcontinue
  decide

/-- Every line of a preamble is one line. -/
theorem not_mem_of_mem_preamble {roots : List String} {options : WrapOptions}
    (haliases : ∀ name ∈ options.aliases, Bindable name) (hroots : ∀ root ∈ roots, Bindable root)
    {line : String} (h : line ∈ preamble roots options) : '\n' ∉ line.toList := by
  have hscope := not_mem_of_isIdentifier bindable_scopeBinding.1
  simp only [preamble, List.cons_append, List.mem_cons, List.mem_append, List.mem_map,
    List.mem_filter] at h
  rcases h with rfl | ⟨name, hname, rfl⟩ | ⟨root, ⟨hroot, -⟩, rfl⟩
  · decide
  · have hn := not_mem_of_isIdentifier (haliases name hname).1
    simp [aliasLine, String.toList_append, hn, hscope]
  · have hr := not_mem_of_isIdentifier (hroots root hroot).1
    simp [rootLine, String.toList_append, hr, hscope]

/-- Lines without breaks in them have as many ends as there are lines. -/
theorem count_linesChars {lines : List String} (h : ∀ line ∈ lines, '\n' ∉ line.toList) :
    (linesChars lines).count '\n' = lines.length := by
  induction lines with
  | nil => rfl
  | cons line lines ih =>
    rw [List.forall_mem_cons] at h
    rw [linesChars_cons, List.count_append, List.count_cons_self, ih h.2,
      List.count_eq_zero_of_not_mem h.1, List.length_cons]
    omega

/-- Behind some lines a place has moved on from the start by their bytes and their number. -/
theorem after_linesChars {lines : List String} (hne : lines ≠ [])
    (h : ∀ line ∈ lines, '\n' ∉ line.toList) :
    Place.start.after (linesChars lines) =
      Place.start.moved (linesText lines).utf8ByteSize lines.length := by
  obtain ⟨cs, hcs⟩ : ∃ cs, linesChars lines = cs ++ ['\n'] := by
    rcases List.eq_nil_or_concat lines with hnil | ⟨init, last, hlast⟩
    · exact absurd hnil hne
    · refine ⟨linesChars init ++ last.toList, ?_⟩
      rw [hlast]
      simp [linesChars]
  have htext : linesText lines = String.ofList (cs ++ ['\n']) := by
    rw [← hcs, ← toList_linesText, String.ofList_toList]
  rw [← count_linesChars h, htext, hcs]
  exact Place.after_lineBreak cs

/-- The names that the preamble binds, with the paths they are bound to. -/
def bound (roots : List String) (options : WrapOptions) : List (String × Path) :=
  options.aliases.map (fun name => (name, ⟨scopeBinding, []⟩)) ++
    (roots.filter fun root => !options.aliases.contains root).map
      fun root => (root, ⟨scopeBinding, [root]⟩)

/-- The scan passes over the header. -/
theorem skips_header : Skips (header.toList ++ ['\n']) := by
  have hcomment : '\n' ∉ " modboot unit".toList := by decide
  exact skips_comment hcomment

/-- Behind its header a preamble is lines that bind its names. -/
theorem exists_lines_preamble {roots : List String} {options : WrapOptions}
    (haliases : ∀ name ∈ options.aliases, Bindable name) (hroots : ∀ root ∈ roots, Bindable root) :
    ∃ lines, preamble roots options = header :: lines ∧
      List.Forall₂ (fun line b => Binds line b.1 b.2) lines (bound roots options) := by
  refine ⟨options.aliases.map aliasLine ++
    (roots.filter fun root => !options.aliases.contains root).map rootLine, rfl, ?_⟩
  apply List.rel_append
  · apply List.forall₂_map_left_iff.2
    apply List.forall₂_map_right_iff.2
    exact List.forall₂_same.2 fun name hname => binds_aliasLine (haliases name hname)
  · apply List.forall₂_map_left_iff.2
    apply List.forall₂_map_right_iff.2
    apply List.forall₂_same.2
    intro root hroot
    exact binds_rootLine (hroots root (List.mem_filter.1 hroot).1)

/-- A text behind a preamble is read as the bindings of the preamble and, moved, as by itself. -/
theorem programFrom_preamble {roots : List String} {options : WrapOptions}
    (haliases : ∀ name ∈ options.aliases, Bindable name) (hroots : ∀ root ∈ roots, Bindable root)
    (body : String) :
    ∃ front : Program,
      front.map (·.action) = (bound roots options).map (fun b => .var b.1 (.path b.2)) ∧
      parseProgram (linesText (preamble roots options) ++ body) =
        match parseProgram body with
        | .ok program => .ok (front ++ program.map (Statement.moved
            (linesText (preamble roots options)).utf8ByteSize (preamble roots options).length))
        | .error e => .error (e.moved
            (linesText (preamble roots options)).utf8ByteSize (preamble roots options).length) := by
  obtain ⟨lines, hlines, hbinds⟩ := exists_lines_preamble haliases hroots
  obtain ⟨front, hfront, hprogram⟩ := programFrom_lines hbinds skips_header body.toList Place.start
  refine ⟨front, hfront, ?_⟩
  have htext : (linesText (preamble roots options)).toList =
      (header.toList ++ ['\n']) ++ linesChars lines := by
    rw [toList_linesText, hlines]
    rfl
  have hplace : Place.start.after ((header.toList ++ ['\n']) ++ linesChars lines) =
      Place.start.moved (linesText (preamble roots options)).utf8ByteSize
        (preamble roots options).length := by
    rw [← htext, toList_linesText]
    exact after_linesChars (by rw [hlines]; exact List.cons_ne_nil _ _) fun line hline =>
      not_mem_of_mem_preamble haliases hroots hline
  rw [hplace] at hprogram
  rw [parseProgram_eq, String.toList_append, htext, List.append_assoc, hprogram, parseProgram_eq]
  have hmoved := programFrom_moved (linesText (preamble roots options)).utf8ByteSize
    (preamble roots options).length ⟨body.toList, Place.start⟩
  rw [Cursor.moved] at hmoved
  rw [hmoved]
  cases programFrom ⟨body.toList, Place.start⟩ <;> rfl

/-! ## Running the preamble -/

/-- What a unit's local names are once its preamble has run: the scope under its own name, the scope
again under every alias, and every other root as the holder has it, or undefined where it has none. -/
def Scope.bindings (s : Scope) (options : WrapOptions) (e : Engine) : Table Value :=
  (Table.empty.set scopeBinding (.object s.holder)).setAll
    (options.aliases.map (fun name => (name, .object s.holder)) ++
      (s.roots.filter fun root => !options.aliases.contains root).map
        fun root => (root, (e.heap.read s.holder root).getD .undefined))

/-- Statements that bind names to what an object holds run through and change local names only, as
long as the name of the scope stays bound to the object. -/
theorem statements_bind {e : Engine} {holder : ObjectId} {program : Program}
    {entries : List (String × Value)}
    (h : List.Forall₂ (fun s entry => ∃ path : Path, s.action = .var entry.1 (.path path) ∧
      path.head = scopeBinding ∧
      Run.walk e.heap (.object holder) path.properties = .ok entry.2) program entries)
    (hscope : ∀ entry ∈ entries, entry.1 = scopeBinding → entry.2 = .object holder)
    {locals : Table Value} (hlocals : locals.get? scopeBinding = some (.object holder)) :
    Run.statements ⟨e, locals⟩ .undefined program =
      (.ok .undefined, ⟨e, locals.setAll entries⟩) := by
  induction h generalizing locals with
  | nil => rfl
  | @cons s entry program entries hs _ ih =>
    obtain ⟨path, haction, hhead, hwalk⟩ := hs
    rw [List.forall_mem_cons] at hscope
    have hperform : Run.perform ⟨e, locals⟩ s.action =
        (.ok .undefined, ⟨e, locals.set entry.1 entry.2⟩) := by
      simp only [haction, Run.perform, Run.evaluate, Run.readPath, Run.lookup, hhead, hlocals, hwalk]
    have hkept : (locals.set entry.1 entry.2).get? scopeBinding = some (.object holder) := by
      rw [Table.get?_set]
      split
      · rename_i he
        rw [hscope.1 he.symm]
      · exact hlocals
    simp only [Run.statements, hperform]
    exact ih hscope.2 hkept

/-- Two lists that are mapped to one agree element by element. -/
theorem forall₂_of_map_eq {α β γ : Type} {f : α → γ} {g : β → γ} {l : List α} {m : List β}
    (h : l.map f = m.map g) : List.Forall₂ (fun a b => f a = g b) l m := by
  rw [← List.forall₂_eq_eq_eq] at h
  exact List.forall₂_map_left_iff.1 (List.forall₂_map_right_iff.1 h)

/-- The statements of a preamble run through, whatever the engine holds, and bind what they should. -/
theorem statements_preamble {s : Scope} {options : WrapOptions} (hroots : scopeBinding ∉ s.roots)
    {front : Program}
    (hfront : front.map (·.action) =
      (bound s.roots options).map (fun b => .var b.1 (.path b.2))) (e : Engine) :
    Run.statements ⟨e, Table.empty.set scopeBinding (.object s.holder)⟩ .undefined front =
      (.ok .undefined, ⟨e, s.bindings options e⟩) := by
  refine @statements_bind e s.holder front _ ?_ ?_ _ ?_
  · rw [bound, List.map_append, List.map_map, List.map_map] at hfront
    obtain ⟨aliases, roots, rfl, haliases, hrest⟩ := List.map_eq_append_iff.1 hfront
    apply List.rel_append
    · apply List.forall₂_map_right_iff.2
      apply (forall₂_of_map_eq haliases).imp
      intro statement name haction
      exact ⟨⟨scopeBinding, []⟩, haction, rfl, rfl⟩
    · apply List.forall₂_map_right_iff.2
      apply (forall₂_of_map_eq hrest).imp
      intro statement root haction
      exact ⟨⟨scopeBinding, [root]⟩, haction, rfl, rfl⟩
  · intro entry hentry he
    rcases List.mem_append.1 hentry with hmem | hmem
    · obtain ⟨name, -, rfl⟩ := List.mem_map.1 hmem
      rfl
    · obtain ⟨root, hroot, rfl⟩ := List.mem_map.1 hmem
      rw [show root = scopeBinding from he] at hroot
      exact absurd (List.mem_filter.1 hroot).1 hroots
  · exact Table.get?_set_self _ _ _

/-! ## Names that can be bound -/

/-- A name is added to those that were there. -/
theorem mem_addName {names : List String} {other name : String} :
    name ∈ addName names other ↔ name ∈ names ∨ name = other := by
  unfold addName
  split
  · rename_i h
    rw [List.contains_iff_mem] at h
    exact ⟨.inl, fun hor => hor.elim id fun he => he ▸ h⟩
  · rw [List.mem_append, List.mem_singleton]

/-- Names that are added in turn are there with those that were. -/
theorem mem_foldl_addName {names more : List String} {name : String} :
    name ∈ more.foldl addName names ↔ name ∈ names ∨ name ∈ more := by
  induction more generalizing names with
  | nil => simp
  | cons first more ih => rw [List.foldl_cons, ih, mem_addName, List.mem_cons, or_assoc]

/-- The declared roots are the roots of the paths found that may be roots. -/
theorem mem_declaredRoots {source name : String} : name ∈ declaredRoots source ↔
    name ∈ (declarations source.toList).map rootOf ∧ isRootName name = true := by
  rw [declaredRoots, mem_foldl_addName, List.mem_filter]
  exact or_iff_right List.not_mem_nil

/-- Registering adds the names to the roots. -/
theorem mem_roots_register {s : Scope} {e : Engine} {names : List String} {root : String} :
    root ∈ (s.register e names).2.1.roots ↔ root ∈ s.roots ∨ root ∈ names := by
  induction names generalizing s e with
  | nil => simp [Scope.register]
  | cons name names ih =>
    rw [Scope.register]
    split
    · rename_i h
      rw [List.contains_iff_mem] at h
      rw [ih, List.mem_cons]
      exact ⟨Or.imp_right .inr, fun hor =>
        hor.elim .inl fun hor => hor.elim (fun he => .inl (he ▸ h)) .inr⟩
    · show root ∈ ((s.addRoot e name).1.register (s.addRoot e name).2 names).2.1.roots ↔ _
      rw [ih, List.mem_cons, ← or_assoc]
      apply or_congr_left
      rw [Scope.addRoot, List.mem_append, List.mem_singleton]

/-- The scopes that come about by discovering roots, whatever else happens to the engine. -/
inductive Scope.Discovered : Scope → Prop where
  | make (e : Engine) : Discovered (Scope.make e).1
  | discover {s : Scope} (h : Discovered s) (e : Engine) (source : String) :
      Discovered (s.discoverRoots e source).2.1

/-- The roots of a scope that were discovered may be roots. -/
theorem Scope.Discovered.isRootName {s : Scope} (h : s.Discovered) :
    ∀ root ∈ s.roots, Namespace.isRootName root = true := by
  induction h with
  | make e => nofun
  | discover _ e source ih =>
    intro root hroot
    rcases mem_roots_register.1 hroot with hmem | hmem
    · exact ih root hmem
    · exact (mem_declaredRoots.1 hmem).2

/-- The roots of a scope that were discovered can be bound. -/
theorem Scope.Discovered.bindable {s : Scope} (h : s.Discovered) :
    ∀ root ∈ s.roots, Bindable root := by
  intro root hroot
  have hname := h.isRootName root hroot
  simp only [Namespace.isRootName, Bool.and_eq_true, Bool.not_eq_true'] at hname
  exact hname.1

/-- The name that units bind the holder to is no root that was discovered. -/
theorem Scope.Discovered.not_mem {s : Scope} (h : s.Discovered) : scopeBinding ∉ s.roots := by
  intro hmem
  have hname := h.isRootName _ hmem
  revert hname
  decide

/-- The aliases of a valid configuration can be bound. -/
theorem bindable_of_validate {config : Configuration} (h : config.validate = .ok ()) :
    ∀ name ∈ config.wrapOptions.aliases, Bindable name := by
  obtain ⟨-, -, -, -, haliases⟩ := Configuration.validate_eq_ok.1 h
  intro name hname
  simpa [Configuration.isBindable, Bindable] using haliases name hname

/-- With aliases that a configuration may have and roots that were discovered, a unit is a preamble,
the body and a trailer.  The preamble with the body behind it is read as one binding for each alias,
one for each other root, and then the body's own statements in their own columns, further on by the
lines and bytes of the preamble; where the body is not a program, the error is the body's own, further
on by as much.  The preamble's statements run through whatever the engine holds, leave it as it is and
bind the aliases and roots. -/
theorem wrap_transparent (config : Configuration) (hvalid : config.validate = .ok ())
    (scope : Scope) (hscope : scope.Discovered) (body : String) (info : SourceInfo) :
    let options := config.wrapOptions
    let unit := wrap body scope.roots info options
    let before := linesText (preamble scope.roots options)
    unit.source = before ++ body ++ trailer info options ∧
      ∃ front : Program,
        front.map (·.action) =
          options.aliases.map (fun name => .var name (.path ⟨scopeBinding, []⟩)) ++
            (scope.roots.filter fun root => !options.aliases.contains root).map
              (fun root => .var root (.path ⟨scopeBinding, [root]⟩)) ∧
        (parseProgram (before ++ body) =
          match parseProgram body with
          | .ok program =>
            .ok (front ++ program.map (Statement.moved before.utf8ByteSize unit.lineOffset))
          | .error e => .error (e.moved before.utf8ByteSize unit.lineOffset)) ∧
        ∀ e : Engine,
          Run.statements ⟨e, Table.empty.set scopeBinding (.object scope.holder)⟩ .undefined front =
            (.ok .undefined, ⟨e, scope.bindings options e⟩) := by
  intro options unit before
  obtain ⟨front, hfront, hparse⟩ :=
    programFrom_preamble (bindable_of_validate hvalid) hscope.bindable body
  refine ⟨rfl, front, ?_, hparse, statements_preamble hscope.not_mem hfront⟩
  rw [hfront, bound, List.map_append, List.map_map, List.map_map]
  rfl

/-- A body of two statements, behind the lines of one alias and one root. -/
theorem wrap_transparent_assignment :
    let config := Configuration.default
    let scope := ((Scope.make .initial).1.discoverRoots .initial "declare-root('app.core')").2.1
    config.validate = .ok () ∧ scope.Discovered ∧
      ∃ front : Program, ∃ e : Engine,
        front.map (·.action) = [.var "$BASE" (.path ⟨"$ROOTS", []⟩),
          .var "app" (.path ⟨"$ROOTS", ["app"]⟩)] ∧
        parseProgram (linesText (preamble scope.roots config.wrapOptions) ++
            "app.x = true\nvar y") =
          .ok (front ++ [⟨.assign ⟨"app", ["x"]⟩ (.boolean true), ⟨⟨58, 4, 1⟩, 61⟩⟩,
            ⟨.var "y" .undefined, ⟨⟨71, 5, 1⟩, 74⟩⟩]) ∧
        Run.statements ⟨e, Table.empty.set scopeBinding (.object scope.holder)⟩ .undefined front =
          (.ok .undefined, ⟨e, scope.bindings config.wrapOptions e⟩) := by
  intro config scope
  have hroots : scope.roots = ["app"] := by decide +kernel +revert
  have hvalid : config.validate = .ok () := rfl
  have hscope : scope.Discovered := .discover (.make .initial) .initial _
  obtain ⟨-, front, hfront, hparse, hrun⟩ := wrap_transparent config hvalid scope hscope
    "app.x = true\nvar y" ⟨"m.js", "m.js", false⟩
  have hbody : parseProgram "app.x = true\nvar y" =
      .ok [⟨.assign ⟨"app", ["x"]⟩ (.boolean true), ⟨⟨0, 1, 1⟩, 3⟩⟩,
        ⟨.var "y" .undefined, ⟨⟨13, 2, 1⟩, 16⟩⟩] := by decide +kernel
  rw [hbody] at hparse
  refine ⟨hvalid, hscope, front, .initial, ?_, ?_, hrun .initial⟩
  · rw [hfront, hroots]
    decide
  · rw [hparse]
    have hsize : (linesText (preamble scope.roots config.wrapOptions)).utf8ByteSize = 58 := by
      rw [hroots]
      decide
    have hlines : (preamble scope.roots config.wrapOptions).length = 3 := by
      rw [hroots]
      decide
    simp only [wrap, hsize, hlines]
    rfl

end ModuleLoader.Namespace
