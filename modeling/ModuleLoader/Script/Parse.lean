import ModuleLoader.Script.Program
import ModuleLoader.Script.Scan
import ModuleLoader.Text.Segments

/-!
# From tokens to programs

A recursive descent over the list of tokens still to be read; `finish` is the token that stands
for the end of the source.  A statement ends at a semicolon, before a token on a new line, or at
the end.  Main statement: `statement_shorter`, a statement consumes a token, so that reading
statements until the end terminates.
-/

set_option autoImplicit false

namespace ModuleLoader.Script

open ModuleLoader.Text

/-- Why a source is not a program. -/
inductive SyntaxCause where
  | unexpected (found : TokenKind)
  | expected (wanted found : TokenKind)
  | invalidRoot (path : String)
deriving DecidableEq, Repr

/-- The message of a cause. -/
def SyntaxCause.message : SyntaxCause → String
  | .unexpected .finish => "Unexpected end of input"
  | .unexpected .unterminated => "Unterminated string literal"
  | .unexpected found => "Unexpected " ++ found.describe
  | .expected wanted found => "Expected " ++ wanted.describe ++ " but found " ++ found.describe
  | .invalidRoot path => "Invalid root declaration \"" ++ path ++ "\""

/-- A syntax error at a place. -/
structure SyntaxError where
  cause : SyntaxCause
  place : Place
deriving DecidableEq, Repr

/-- A result of reading some tokens: what was read and the tokens left. -/
abbrev Reading (α : Type) := Except SyntaxError (α × List Token)

/-- A dotted path can be declared when its segments are identifiers and the first one is not
reserved. -/
def isDeclarable (path : String) : Bool :=
  let segments := splitOnChar '.' path
  !(segments.head?.any isKeyword) && segments.all isIdentifier

section

variable (finish : Token)

/-- The next token, which is the finish where no token is left. -/
def current (ts : List Token) : Token := ts.headD finish

/-- The error that the token looked at has no business here. -/
def unexpected (ts : List Token) : SyntaxError :=
  ⟨.unexpected (current finish ts).kind, (current finish ts).span.place⟩

/-- Take a mark that has to come next. -/
def expectMark (symbol : Mark) (ts : List Token) : Except SyntaxError (List Token) :=
  if (current finish ts).kind = .mark symbol then .ok ts.tail
  else .error ⟨.expected (.mark symbol) (current finish ts).kind, (current finish ts).span.place⟩

/-- Read the properties of a path: a point and an identifier, any number of times. -/
def pathTail : List Token → Reading (List String)
  | [] => .ok ([], [])
  | [d] => if d.kind = .mark .dot then .error (unexpected finish []) else .ok ([], [d])
  | d :: t :: ts =>
    if d.kind = .mark .dot then
      match t.kind with
      | .identifier name =>
        match pathTail ts with
        | .ok (names, rest) => .ok (name :: names, rest)
        | .error e => .error e
      | _ => .error (unexpected finish (t :: ts))
    else .ok ([], d :: t :: ts)

/-- Read a path whose head has been read. -/
def pathAfter (head : String) (ts : List Token) : Reading Path :=
  match pathTail finish ts with
  | .ok (properties, rest) => .ok (⟨head, properties⟩, rest)
  | .error e => .error e

/-- Read an expression. -/
def expression : List Token → Reading Expression
  | [] => .error (unexpected finish [])
  | t :: ts =>
    match t.kind with
    | .number n => .ok (.number n, ts)
    | .mark .minus =>
      match (current finish ts).kind with
      | .number n => .ok (.number n.negate, ts.tail)
      | _ => .error (unexpected finish ts)
    | .string s => .ok (.string s, ts)
    | .keyword .true => .ok (.boolean true, ts)
    | .keyword .false => .ok (.boolean false, ts)
    | .keyword .null => .ok (.null, ts)
    | .keyword .undefined => .ok (.undefined, ts)
    | .mark .leftBrace =>
      match expectMark finish .rightBrace ts with
      | .ok rest => .ok (.emptyObject, rest)
      | .error e => .error e
    | .identifier name =>
      match pathAfter finish name ts with
      | .ok (path, rest) => .ok (.path path, rest)
      | .error e => .error e
    | _ => .error (unexpected finish (t :: ts))

/-! ### Reading never lengthens what is left -/

/-- A mark that is taken leaves no more tokens. -/
theorem expectMark_le {symbol : Mark} {ts rest : List Token}
    (h : expectMark finish symbol ts = .ok rest) : rest.length ≤ ts.length := by
  unfold expectMark at h
  split at h
  · cases h
    simp
  · cases h

/-- Reading the properties of a path leaves no more tokens than before. -/
theorem pathTail_le {ts rest : List Token} {names : List String}
    (h : pathTail finish ts = .ok (names, rest)) : rest.length ≤ ts.length := by
  fun_induction pathTail finish ts generalizing names rest with
  | case1 => simp_all
  | case2 => simp_all
  | case3 => simp_all
  | case4 d t ts _ name _ names' rest' hrec ih =>
    simp only [Except.ok.injEq, Prod.mk.injEq] at h
    obtain ⟨-, rfl⟩ := h
    have := ih hrec
    simp only [List.length_cons]
    omega
  | case5 => simp_all
  | case6 => simp_all
  | case7 =>
    simp only [Except.ok.injEq, Prod.mk.injEq] at h
    simp [h.2]

/-- Reading a path after its name leaves no more tokens than before. -/
theorem pathAfter_le {head : String} {ts rest : List Token} {path : Path}
    (h : pathAfter finish head ts = .ok (path, rest)) : rest.length ≤ ts.length := by
  unfold pathAfter at h
  split at h
  · rename_i names rest' hp
    simp only [Except.ok.injEq, Prod.mk.injEq] at h
    exact h.2 ▸ pathTail_le finish hp
  · cases h

/-- An expression takes at least one token. -/
theorem expression_shorter {ts rest : List Token} {e : Expression}
    (h : expression finish ts = .ok (e, rest)) : rest.length < ts.length := by
  cases ts with
  | nil => simp [expression] at h
  | cons t ts =>
    simp only [expression] at h
    simp only [List.length_cons]
    split at h
    · cases h; omega
    · split at h
      · cases h
        simp only [List.length_tail]
        omega
      · cases h
    · cases h; omega
    · cases h; omega
    · cases h; omega
    · cases h; omega
    · cases h; omega
    · split at h
      · rename_i hm
        cases h
        have := expectMark_le finish hm
        omega
      · cases h
    · split at h
      · rename_i hp
        cases h
        have := pathAfter_le finish hp
        omega
      · cases h
    · cases h

/-- Read the arguments of a call up to the closing parenthesis, at least one. -/
def argumentList (ts : List Token) : Reading (List Expression) :=
  match _h : expression finish ts with
  | .error e => .error e
  | .ok (argument, rest) =>
    if (current finish rest).kind = .mark .comma then
      match argumentList rest.tail with
      | .ok (others, rest') => .ok (argument :: others, rest')
      | .error e => .error e
    else
      match expectMark finish .rightParen rest with
      | .ok rest' => .ok ([argument], rest')
      | .error e => .error e
termination_by ts.length
decreasing_by
  have := expression_shorter finish _h
  simp only [List.length_tail]
  omega

/-- Read the arguments of a call after the opening parenthesis. -/
def arguments (ts : List Token) : Reading (List Expression) :=
  if (current finish ts).kind = .mark .rightParen then .ok ([], ts.tail)
  else argumentList finish ts

/-- Read a binding after its keyword; without an initial value the name is undefined. -/
def binding : List Token → Reading Action
  | [] => .error (unexpected finish [])
  | t :: ts =>
    match t.kind with
    | .identifier name =>
      if (current finish ts).kind = .mark .equal then
        match expression finish ts.tail with
        | .ok (init, rest) => .ok (.var name init, rest)
        | .error e => .error e
      else .ok (.var name .undefined, ts)
    | _ => .error (unexpected finish (t :: ts))

/-- Read a root declaration after its keyword.  An unusable path is reported where the reader
stands then, behind the closing parenthesis. -/
def rootDeclaration (ts : List Token) : Reading Action :=
  match expectMark finish .leftParen ts with
  | .error e => .error e
  | .ok inner =>
    match (current finish inner).kind with
    | .string path =>
      match expectMark finish .rightParen inner.tail with
      | .error e => .error e
      | .ok rest =>
        if isDeclarable path then .ok (.declareRoot path, rest)
        else .error ⟨.invalidRoot path, (current finish rest).span.place⟩
    | _ => .error (unexpected finish inner)

/-- Read a statement that begins with a name: an assignment, a call or a bare path.  The equal
sign and the opening parenthesis must stand on the line of the token before, and only a single
name can be called. -/
def namedStatement (name : String) (ts : List Token) : Reading Action :=
  match pathAfter finish name ts with
  | .error e => .error e
  | .ok (path, rest) =>
    let next := current finish rest
    if next.kind = .mark .equal && !next.newlineBefore then
      match expression finish rest.tail with
      | .ok (value, rest') => .ok (.assign path value, rest')
      | .error e => .error e
    else if next.kind = .mark .leftParen && !next.newlineBefore && path.properties.isEmpty then
      match arguments finish rest.tail with
      | .ok (args, rest') => .ok (.call path.head args, rest')
      | .error e => .error e
    else .ok (.expression (.path path), rest)

/-- Read what a statement does. -/
def action (ts : List Token) : Reading Action :=
  match ts with
  | [] => .error (unexpected finish [])
  | t :: rest =>
    match t.kind with
    | .keyword .var => binding finish rest
    | .declareRoot => rootDeclaration finish rest
    | .keyword .throw =>
      match expression finish rest with
      | .ok (value, rest') => .ok (.throw value, rest')
      | .error e => .error e
    | .identifier name => namedStatement finish name rest
    | _ =>
      match expression finish (t :: rest) with
      | .ok (value, rest') => .ok (.expression value, rest')
      | .error e => .error e

/-- Read the end of a statement: a semicolon, a line break or the end of the source. -/
def statementEnd : List Token → Except SyntaxError (List Token)
  | [] => .ok []
  | t :: ts =>
    if t.kind = .mark .semicolon then .ok ts
    else if t.newlineBefore then .ok (t :: ts)
    else .error (unexpected finish (t :: ts))

/-- Read a statement with its end. -/
def statement (ts : List Token) : Reading Statement :=
  match action finish ts with
  | .error e => .error e
  | .ok (what, rest) =>
    match statementEnd finish rest with
    | .error e => .error e
    | .ok rest' => .ok (⟨what, (current finish ts).span⟩, rest')

/-- Reading a list of arguments leaves no more tokens than before. -/
theorem argumentList_le {ts rest : List Token} {args : List Expression}
    (h : argumentList finish ts = .ok (args, rest)) : rest.length ≤ ts.length := by
  fun_induction argumentList finish ts generalizing args rest with
  | case1 => simp_all
  | case2 ts argument next he _ others rest' hrec ih =>
    simp only [Except.ok.injEq, Prod.mk.injEq] at h
    obtain ⟨-, rfl⟩ := h
    have h1 := expression_shorter finish he
    have h2 := ih hrec
    simp only [List.length_tail] at h2
    omega
  | case3 => simp_all
  | case4 ts argument next he _ rest' hm =>
    simp only [Except.ok.injEq, Prod.mk.injEq] at h
    obtain ⟨-, rfl⟩ := h
    have h1 := expression_shorter finish he
    have h2 := expectMark_le finish hm
    omega
  | case5 => simp_all

/-- What a statement does takes at least one token. -/
theorem action_shorter {ts rest : List Token} {what : Action}
    (h : action finish ts = .ok (what, rest)) : rest.length < ts.length := by
  cases ts with
  | nil => simp [action] at h
  | cons t ts =>
    simp only [action] at h
    split at h
    · rename_i hk
      suffices rest.length ≤ ts.length by simpa using Nat.lt_succ_of_le this
      cases ts with
      | nil => simp [binding] at h
      | cons u us =>
        simp only [binding] at h
        split at h
        · split at h
          · split at h
            · rename_i he
              simp only [Except.ok.injEq, Prod.mk.injEq] at h
              have := expression_shorter finish he
              simp only [List.length_tail, List.length_cons] at this ⊢
              rw [← h.2]
              omega
            · cases h
          · simp only [Except.ok.injEq, Prod.mk.injEq] at h
            simp [← h.2]
        · cases h
    · suffices rest.length ≤ ts.length by simpa using Nat.lt_succ_of_le this
      simp only [rootDeclaration] at h
      split at h
      · cases h
      · rename_i hl
        split at h
        · split at h
          · cases h
          · rename_i hr
            split at h
            · simp only [Except.ok.injEq, Prod.mk.injEq] at h
              have h1 := expectMark_le finish hl
              have h2 := expectMark_le finish hr
              simp only [List.length_tail] at h2
              rw [← h.2]
              omega
            · cases h
        · cases h
    · split at h
      · rename_i he
        simp only [Except.ok.injEq, Prod.mk.injEq] at h
        have := expression_shorter finish he
        rw [← h.2]
        simp only [List.length_cons]
        omega
      · cases h
    · suffices rest.length ≤ ts.length by simpa using Nat.lt_succ_of_le this
      simp only [namedStatement] at h
      split at h
      · cases h
      · rename_i hp
        have h1 := pathAfter_le finish hp
        split at h
        · split at h
          · rename_i he
            simp only [Except.ok.injEq, Prod.mk.injEq] at h
            have := expression_shorter finish he
            simp only [List.length_tail] at this
            rw [← h.2]
            omega
          · cases h
        · split at h
          · split at h
            · rename_i ha
              simp only [Except.ok.injEq, Prod.mk.injEq] at h
              rw [← h.2]
              unfold arguments at ha
              split at ha
              · simp only [Except.ok.injEq, Prod.mk.injEq] at ha
                rw [← ha.2]
                simp only [List.length_tail]
                omega
              · have := argumentList_le finish ha
                simp only [List.length_tail] at this
                omega
            · cases h
          · simp only [Except.ok.injEq, Prod.mk.injEq] at h
            rw [← h.2]
            exact h1
    · split at h
      · rename_i he
        simp only [Except.ok.injEq, Prod.mk.injEq] at h
        exact h.2 ▸ expression_shorter finish he
      · cases h

/-- Reading the end of a statement leaves no more tokens than before. -/
theorem statementEnd_le {ts rest : List Token} (h : statementEnd finish ts = .ok rest) :
    rest.length ≤ ts.length := by
  cases ts with
  | nil =>
    cases h
    simp
  | cons t ts =>
    simp only [statementEnd] at h
    split at h
    · cases h
      simp
    · split at h
      · cases h
        simp
      · cases h

/-- A statement takes at least one token. -/
theorem statement_shorter {ts rest : List Token} {s : Statement}
    (h : statement finish ts = .ok (s, rest)) : rest.length < ts.length := by
  unfold statement at h
  split at h
  · cases h
  · rename_i ha
    have h1 := action_shorter finish ha
    split at h
    · cases h
    · rename_i he
      cases h
      exact Nat.lt_of_le_of_lt (statementEnd_le finish he) h1

/-- Read statements up to the end of the source; semicolons between them mean nothing. -/
def statements (ts : List Token) : Except SyntaxError Program :=
  match ts with
  | [] => .ok []
  | t :: rest =>
    if t.kind = .mark .semicolon then statements rest
    else
      match _h : statement finish (t :: rest) with
      | .error e => .error e
      | .ok (s, rest') =>
        match statements rest' with
        | .ok others => .ok (s :: others)
        | .error e => .error e
termination_by ts.length
decreasing_by
  · simp
  · exact statement_shorter finish _h

end

/-- The end token of a source and the tokens before it. -/
def splitFinish (source : String) : Token × List Token :=
  let all := tokens source
  (all.getLast?.getD ⟨.finish, ⟨Place.start, 0⟩, false⟩, all.dropLast)

/-- The program that a source is, or where it is wrong. -/
def parseProgram (source : String) : Except SyntaxError Program :=
  let (finish, ts) := splitFinish source
  statements finish ts

/-- The statement at the front of a source; what follows it is not looked at. -/
def parseStatement (source : String) : Except SyntaxError Statement :=
  let (finish, ts) := splitFinish source
  (statement finish ts).map (·.1)

/-- The expression at the front of a source; what follows it is not looked at. -/
def parseExpression (source : String) : Except SyntaxError Expression :=
  let (finish, ts) := splitFinish source
  (expression finish ts).map (·.1)

end ModuleLoader.Script
