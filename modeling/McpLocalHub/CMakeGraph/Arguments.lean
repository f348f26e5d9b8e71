/- Module: CMakeGraph/Arguments
   source: internal/cmakegraph/cmakegraph.go
   digest: The arguments of include() and add_subdirectory(), and the path that the first of them
   names. -/

import McpLocalHub.CMakeGraph.Lexer
import McpLocalHub.Foundation.GoText

set_option autoImplicit false

namespace McpLocalHub.CMakeGraph.Arguments

open Lexer

structure Argument where
  value : Text
  listContinuation : Bool
  bracket : Bool

inductive NextArgument
  | malformed
  | missing
  | found (argument : Argument) (length : ℕ)

/-- The length of the spaces and comments at the head of the text, `none` if a bracket comment does
not end. -/
def blankLength : Text → (skip pos : ℕ) → Option ℕ
  | [], _, pos => some pos
  | _ :: rest, skip + 1, pos => blankLength rest skip (pos + 1)
  | c :: rest, 0, pos =>
    if isSpace c then blankLength rest 0 (pos + 1)
    else if c ≠ '#' then some pos
    else
      match skipComment rest with
      | none => none
      | some length => blankLength rest length (pos + 1)

def unquotedLength : Text → ℕ × Bool
  | [] => (0, false)
  | '\\' :: _ :: rest => ((unquotedLength rest).1 + 2, (unquotedLength rest).2)
  | c :: rest =>
    if isSpace c then (0, false)
    else if c = ';' then (0, true)
    else ((unquotedLength rest).1 + 1, (unquotedLength rest).2)

def nextArgument (text : Text) (afterSemicolon : Bool) : NextArgument :=
  match blankLength text 0 0 with
  | none => .malformed
  | some blank =>
    match text.drop blank with
    | [] => .missing
    | '"' :: rest =>
      match skipQuoted rest with
      | none => .malformed
      | some length => .found ⟨rest.take (length - 1), false, false⟩ (blank + 1 + length)
    | c :: rest =>
      match matchBracketOpen (c :: rest) with
      | some (opener, eq) =>
        match findBracketClose eq ((c :: rest).drop opener) with
        | none => .malformed
        | some length =>
          .found ⟨((c :: rest).drop opener).take (length - (eq + 2)), false, true⟩
            (blank + opener + length)
      | none =>
        let (length, semicolon) := unquotedLength (c :: rest)
        .found ⟨(c :: rest).take length, decide (blank = 0) && afterSemicolon, false⟩
          (blank + length + semicolon.toNat)

def argumentsFrom : Text → (skip : ℕ) → (afterSemicolon : Bool) → List Argument × Bool
  | [], _, _ => ([], true)
  | c :: rest, skip + 1, _ => argumentsFrom rest skip (decide (c = ';'))
  | c :: rest, 0, afterSemicolon =>
    match nextArgument (c :: rest) afterSemicolon with
    | .malformed => ([], false)
    | .missing => ([], true)
    | .found argument length =>
      let (more, ok) := argumentsFrom rest (length - 1) (decide (c = ';'))
      (argument :: more, ok)

def firstArgument (argText : Text) : Text × Bool :=
  match nextArgument argText false with
  | .malformed | .missing => ([], false)
  | .found argument _ => (argument.value, !argument.bracket)

def includeOptions : List Argument → (consumeResultValue ignoredListContinuation seenOption optional : Bool) →
    Option Bool
  | [], consume, _, _, optional => if consume then none else some optional
  | argument :: rest, consume, ignored, seen, optional =>
    if consume then includeOptions rest false ignored seen optional
    else if argument.bracket then none
    else if argument.value = "RESULT_VARIABLE".toList then includeOptions rest true ignored true optional
    else if argument.value = "OPTIONAL".toList then
      if optional then none else includeOptions rest false ignored true true
    else if argument.listContinuation && !seen && !ignored then
      includeOptions rest false true seen optional
    else none

def includeArgumentOptional (argText : Text) : Option Bool :=
  match argumentsFrom argText 0 false with
  | (_ :: options, true) => includeOptions options false false false false
  | _ => none

def subdirectoryOptions : List Argument → (seenBinary seenExclude seenSystem : Bool) → Bool
  | [], _, _, _ => true
  | argument :: rest, seenBinary, seenExclude, seenSystem =>
    if argument.value = "EXCLUDE_FROM_ALL".toList then
      !(seenExclude || seenSystem) && subdirectoryOptions rest seenBinary true seenSystem
    else if argument.value = "SYSTEM".toList then
      !seenSystem && subdirectoryOptions rest seenBinary seenExclude true
    else !(seenBinary || seenExclude || seenSystem) &&
      subdirectoryOptions rest true seenExclude seenSystem

def addSubdirectoryArgumentsValid (argText : Text) : Bool :=
  match argumentsFrom argText 0 false with
  | (_ :: options, true) => subdirectoryOptions options false false false
  | _ => false

abbrev Path := List Text

def Path.text (path : Path) : Text :=
  match path with
  | [] => ['/']
  | elements => elements.flatMap ('/' :: ·)

def cleanStep (path : Path) (element : Text) : Path :=
  if element = [] ∨ element = ['.'] then path
  else if element = ['.', '.'] then path.dropLast
  else path ++ [element]

def cleanFrom (base : Path) (text : Text) : Path := (text.splitOn '/').foldl cleanStep base

def isAbs (text : Text) : Bool := decide (text.head? = some '/')

inductive Reason
  | nonStaticVariable | generatorExpression | moduleNameNotPath | parseError | cyclic | depthLimit
  | outsideWorkspace | deferredMacroContext | unverifiedSourceDir | targetUnreadable | targetWrongType
  deriving DecidableEq

def Reason.text : Reason → Text
  | .nonStaticVariable => "non_static_variable".toList
  | .generatorExpression => "generator_expression".toList
  | .moduleNameNotPath => "module_name_not_path".toList
  | .parseError => "parse_error".toList
  | .cyclic => "cyclic".toList
  | .depthLimit => "depth_limit".toList
  | .outsideWorkspace => "outside_workspace".toList
  | .deferredMacroContext => "deferred_macro_context".toList
  | .unverifiedSourceDir => "unverified_source_dir".toList
  | .targetUnreadable => "target_unreadable".toList
  | .targetWrongType => "target_wrong_type".toList

inductive EdgeKind
  | include | addSubdirectory
  deriving DecidableEq

def EdgeKind.text : EdgeKind → Text
  | .include => "include".toList
  | .addSubdirectory => "add_subdirectory".toList

structure SourceContext where
  dir : Path
  verified : Bool
  deriving DecidableEq

def isBlank (text : Text) : Bool := text.all Foundation.GoText.isSpace

def contains (part : Text) : Text → Bool
  | [] => part.isEmpty
  | c :: rest => part.isPrefixOf (c :: rest) || contains part rest

def substituteKnownVars (listDir workspaceRoot : Text) : Text → (skip : ℕ) → Option Text
  | [], _ => some []
  | _ :: rest, skip + 1 => substituteKnownVars listDir workspaceRoot rest skip
  | c :: rest, 0 =>
    if c = '$' ∧ rest.head? = some '{' then
      let name := (rest.drop 1).takeWhile (· ≠ '}')
      if (rest.drop (1 + name.length)).isEmpty then none
      else if name = "CMAKE_CURRENT_LIST_DIR".toList then
        (substituteKnownVars listDir workspaceRoot rest (name.length + 2)).map (listDir ++ ·)
      else if name = "CMAKE_SOURCE_DIR".toList then
        (substituteKnownVars listDir workspaceRoot rest (name.length + 2)).map (workspaceRoot ++ ·)
      else none
    else (substituteKnownVars listDir workspaceRoot rest 0).map (c :: ·)

def looksLikeModuleName (toLower : Text → Text) (text : Text) : Bool :=
  !text.any (fun c => decide (c = '/' ∨ c = '\\')) && !".cmake".toList.isSuffixOf (toLower text)

/-- `classifyArg`: the path that an argument names, or why it names none. `toLower` is
`strings.ToLower`. -/
def classifyArg (toLower : Text → Text) (kind : EdgeKind) (rawArg : Text)
    (malformed deferredMacro : Bool) (listDir : Path) (ctx : SourceContext) (workspaceRoot : Path) :
    Except Reason Path :=
  if malformed || isBlank rawArg then .error .parseError
  else if contains ['\\'] rawArg then .error .parseError
  else if contains "$<".toList rawArg then .error .generatorExpression
  else if deferredMacro && contains "$\x7bCMAKE_CURRENT_LIST_DIR\x7d".toList rawArg then
    .error .deferredMacroContext
  else if contains "$ENV\x7b".toList rawArg || contains "$CACHE\x7b".toList rawArg then
    .error .nonStaticVariable
  else
    let hadVariable := contains "$\x7b".toList rawArg
    match substituteKnownVars listDir.text workspaceRoot.text rawArg 0 with
    | none => .error .nonStaticVariable
    | some substituted =>
      if decide (kind = .include) && !hadVariable && looksLikeModuleName toLower substituted then
        .error .moduleNameNotPath
      else if deferredMacro && !isAbs substituted then .error .deferredMacroContext
      else if isAbs substituted then .ok (cleanFrom [] substituted)
      else if !ctx.verified then .error .unverifiedSourceDir
      else .ok (cleanFrom ctx.dir substituted)

end McpLocalHub.CMakeGraph.Arguments
