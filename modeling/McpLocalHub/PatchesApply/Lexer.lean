/- Module: PatchesApply/Lexer
   source: internal/vcpkgmcp/patchesapply/lexer.go
   digest: The scanner that cuts a portfile into statements, and the one that cuts arguments into
   tokens. -/

import McpLocalHub.CMakeGraph.Lexer

set_option autoImplicit false

namespace McpLocalHub.PatchesApply.Lexer

open CMakeGraph.Lexer (Text isIdentStart isIdentCont matchBracketOpen findBracketClose)

/-! A text is a sequence of bytes, each of them the character of its code. An index into the text is the part of the text behind it, and a jump is a number of bytes. -/

def isSpaceOrNL (c : Char) : Bool := decide (c = ' ' ∨ c = '\t' ∨ c = '\r' ∨ c = '\n')

def skipQuoted : Text → ℕ
  | [] => 0
  | '\\' :: _ :: rest => skipQuoted rest + 2
  | '"' :: _ => 1
  | _ :: rest => skipQuoted rest + 1

def lineLength : Text → ℕ
  | [] => 0
  | c :: rest => if c = '\n' then 1 else lineLength rest + 1

def escapeLength : Text → ℕ
  | '\r' :: '\n' :: _ => 2
  | _ => 1

inductive Kind
  | quoted | bracket | comment
  deriving DecidableEq

structure Region where
  kind : Kind
  start : ℕ
  stop : ℕ
  deriving DecidableEq

inductive Mark
  | bare | blank | opens | closes
  | skipped (kind : Kind)
  deriving DecidableEq

/-- One turn of the loop that looks for the closing parenthesis: how many bytes it takes and what
they are. It is `none` at a bracket argument that is not closed. -/
def argTurn : Text → Option (ℕ × Mark)
  | [] => none
  | c :: rest =>
    if c = '\\' ∧ rest ≠ [] then some (escapeLength rest + 1, .bare)
    else if c = '"' then some (skipQuoted rest + 1, .skipped .quoted)
    else if c = '#' then
      match matchBracketOpen rest with
      | some (opener, eq) =>
        match findBracketClose eq (rest.drop opener) with
        | some length => some (opener + length + 1, .skipped .comment)
        | none => some (rest.length + 1, .skipped .comment)
      | none => some (lineLength rest + 1, .skipped .comment)
    else if c = '[' then
      match matchBracketOpen (c :: rest) with
      | some (opener, eq) =>
        (findBracketClose eq ((c :: rest).drop opener)).map
          (fun length => (opener + length, .skipped .bracket))
      | none => some (1, .bare)
    else if c = '(' then some (1, .opens)
    else if c = ')' then some (1, .closes)
    else some (1, if isSpaceOrNL c then .blank else .bare)

/-- The loop: the position of the closing parenthesis, with what was skipped on the way, or `none`
when the text ends first. -/
def scanArgs : Text → (skip depth pos : ℕ) → Option (ℕ × List Region)
  | [], _, _, _ => none
  | _ :: rest, skip + 1, depth, pos => scanArgs rest skip depth (pos + 1)
  | c :: rest, 0, depth, pos =>
    match argTurn (c :: rest) with
    | none => none
    | some (_, .opens) => scanArgs rest 0 (depth + 1) (pos + 1)
    | some (_, .closes) =>
      if depth = 1 then some (pos, []) else scanArgs rest 0 (depth - 1) (pos + 1)
    | some (length, .skipped kind) =>
      (scanArgs rest (length - 1) depth (pos + 1)).map
        (fun found => (found.1, ⟨kind, pos, pos + length⟩ :: found.2))
    | some (length, _) => scanArgs rest (length - 1) depth (pos + 1)

/-- `statement`, with the regions that were skipped in its arguments. The line is read by nobody. -/
structure Statement where
  name : Text
  args : Text
  skipped : List Region
  deriving DecidableEq

structure Split where
  statements : List Statement
  ok : Bool

def Split.push (statement : Statement) (split : Split) : Split :=
  ⟨statement :: split.statements, split.ok⟩

def topComment (rest : Text) : Option ℕ :=
  match matchBracketOpen rest with
  | some (opener, eq) => (findBracketClose eq (rest.drop opener)).map (fun length => opener + length)
  | none => some (lineLength rest)

def splitFrom : Text → (skip : ℕ) → Split
  | [], _ => ⟨[], true⟩
  | _ :: rest, skip + 1 => splitFrom rest skip
  | c :: rest, 0 =>
    if c = '#' then
      match topComment rest with
      | none => ⟨[], false⟩
      | some length => splitFrom rest length
    else if c = '"' then splitFrom rest (skipQuoted rest)
    else if c = '[' then
      match matchBracketOpen (c :: rest) with
      | some (opener, eq) =>
        match findBracketClose eq ((c :: rest).drop opener) with
        | none => ⟨[], false⟩
        | some length => splitFrom rest (opener + length - 1)
      | none => splitFrom rest 0
    else if isIdentStart c then
      let tail := rest.takeWhile isIdentCont
      let gap := ((rest.drop tail.length).takeWhile (fun c => c = ' ' ∨ c = '\t')).length
      match rest.drop (tail.length + gap) with
      | '(' :: args =>
        match scanArgs args 0 1 0 with
        | none => ⟨[], false⟩
        | some (argEnd, skipped) =>
          (splitFrom rest (tail.length + gap + argEnd + 2)).push
            ⟨(c :: tail).map Char.toLower, args.take argEnd, skipped⟩
      | _ => splitFrom rest (tail.length + gap)
    else splitFrom rest 0

def splitStatementsChecked (src : Text) : Split := splitFrom src 0

structure Token where
  text : Text
  listText : Text
  quoted : Bool := false
  raw : Bool := false

def isAlphanumeric (c : Char) : Bool :=
  decide ('A' ≤ c ∧ c ≤ 'Z' ∨ 'a' ≤ c ∧ c ≤ 'z' ∨ '0' ≤ c ∧ c ≤ '9')

def unescapeQuoted : Text → Text
  | '\\' :: '\n' :: rest => unescapeQuoted rest
  | '\\' :: '\r' :: '\n' :: rest => unescapeQuoted rest
  | '\\' :: 't' :: rest => '\t' :: unescapeQuoted rest
  | '\\' :: 'r' :: rest => '\r' :: unescapeQuoted rest
  | '\\' :: 'n' :: rest => '\n' :: unescapeQuoted rest
  | '\\' :: next :: rest =>
    if isAlphanumeric next then '\\' :: next :: unescapeQuoted rest else next :: unescapeQuoted rest
  | c :: rest => c :: unescapeQuoted rest
  | [] => []

def scanBareEnd : Text → ℕ
  | [] => 0
  | '\\' :: '\r' :: '\n' :: rest => scanBareEnd rest + 3
  | '\\' :: _ :: rest => scanBareEnd rest + 2
  | c :: rest =>
    if isSpaceOrNL c || c = '"' || c = '(' || c = ')' || c = '#' then 0 else scanBareEnd rest + 1

def bracketContent : Text → Text
  | '\r' :: '\n' :: rest => rest
  | '\n' :: rest => rest
  | content => content

def bareToken (text : Text) : ℕ × Option Token × Option Kind :=
  let raw := text.take (scanBareEnd text)
  (scanBareEnd text, some { text := unescapeQuoted raw, listText := raw }, none)

/-- One turn of `tokenize`. It is `none` where the slice of a quoted string has its end before its
start. -/
def tokenTurn : Text → Option (ℕ × Option Token × Option Kind)
  | [] => none
  | c :: rest =>
    if isSpaceOrNL c then some (1, none, none)
    else if c = '#' then
      match matchBracketOpen rest with
      | some (opener, eq) =>
        match findBracketClose eq (rest.drop opener) with
        | some length => some (opener + length + 1, none, some .comment)
        | none => some (lineLength rest + 1, none, some .comment)
      | none => some (lineLength rest + 1, none, some .comment)
    else if c = '"' then
      if skipQuoted rest = 0 then none
      else
        let text := unescapeQuoted (rest.take (skipQuoted rest - 1))
        some (skipQuoted rest + 1, some { text := text, listText := text, quoted := true },
          some .quoted)
    else if c = '[' then
      match matchBracketOpen (c :: rest) with
      | some (opener, eq) =>
        match findBracketClose eq ((c :: rest).drop opener) with
        | some length =>
          let content := bracketContent (((c :: rest).drop opener).take (length - (eq + 2)))
          some (opener + length,
            some { text := content, listText := content, quoted := true, raw := true },
            some .bracket)
        | none => some (bareToken (c :: rest))
      | none => some (bareToken (c :: rest))
    else if c = '(' ∨ c = ')' then some (1, some { text := [c], listText := [c] }, none)
    else some (bareToken (c :: rest))

def tokenizeFrom : Text → (skip pos : ℕ) → Option (List Token × List Region)
  | [], _, _ => some ([], [])
  | _ :: rest, skip + 1, pos => tokenizeFrom rest skip (pos + 1)
  | c :: rest, 0, pos =>
    match tokenTurn (c :: rest) with
    | none => none
    | some (length, token, kind) =>
      (tokenizeFrom rest (length - 1) (pos + 1)).map (fun later =>
        (token.toList ++ later.1,
          (kind.map (fun kind => ⟨kind, pos, pos + length⟩)).toList ++ later.2))

/-- `tokenize`; `none` is a slice out of range. -/
def tokenize (s : Text) : Option (List Token) := (tokenizeFrom s 0 0).map Prod.fst

end McpLocalHub.PatchesApply.Lexer
