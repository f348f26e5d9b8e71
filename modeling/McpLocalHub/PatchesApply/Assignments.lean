/- Module: PatchesApply/Assignments
   source: internal/vcpkgmcp/patchesapply/walk.go, internal/vcpkgmcp/patchesapply/mutations.go
   digest: The statements that store values: set, unset and list, on the tokens of their
   arguments. -/

import McpLocalHub.PatchesApply.Values

set_option autoImplicit false

namespace McpLocalHub.PatchesApply.Assignments

open CMakeGraph.Lexer (Text isIdentStart isIdentCont)
open Foundation.Kleene Foundation.Maps Lexer Values

def plainIdent : Text → Bool
  | [] => false
  | c :: rest => isIdentStart c && rest.all isIdentCont

def isWord (word : String) (t : Token) : Bool := !t.quoted && t.text = word.toList

/-- The loop of `handleSet` and `handleListAppend` over the values: the items so far, and the issue
that ended it. -/
def evaluateItems (env : VarEnv) (call : Call) : List Token → List SemanticItem × Option Issue
  | [] => ([], none)
  | t :: rest =>
    match semanticItemsFromToken t env call with
    | .error issue => ([], some issue)
    | .ok items => (items ++ (evaluateItems env call rest).1, (evaluateItems env call rest).2)

def storedValue (env : VarEnv) (call : Call) (tokens : List Token) : SerializedValue :=
  { serializeItems (evaluateItems env call tokens).1 with
    resolution := (evaluateItems env call tokens).2 }

def endsSetValues (t : Token) : Bool :=
  isWord "CACHE" t || isWord "PARENT_SCOPE" t || isWord "FORCE" t

def handleSet (toks : List Token) (env : VarEnv) (call : Call) : VarEnv :=
  match toks with
  | [] => env
  | first :: rest =>
    if first.text = [] then env
    else if rest.any (isWord "PARENT_SCOPE") then env
    else
      let value := storedValue env call (rest.takeWhile (fun t => !endsSetValues t))
      let alternatives := (env.inactiveValues.lookup first.text).getD []
      if call.active = .isFalse then
        { env with
          inactiveValues := env.inactiveValues.insert first.text (alternatives ++ [value]) }
      else env.setValue first.text value

def handleUnset (toks : List Token) (env : VarEnv) (call : Call) : Option VarEnv :=
  match toks with
  | [t] => if t.quoted ∨ plainIdent t.text = false then none
      else some (env.unsetValue t.text call.prov)
  | _ => none

def mutationVariablesAt (toks : List Token) (indices : List ℕ) : Option (List Text) :=
  indices.mapM (fun index =>
    match toks[index]? with
    | none => none
    | some t => if plainIdent t.text then some t.text else none)

def transformIndex : List Token → (index : ℕ) → Option ℕ
  | [], _ => some 1
  | t :: rest, index =>
    if t.text = "OUTPUT_VARIABLE".toList then (if rest = [] then none else some (index + 1))
    else transformIndex rest (index + 1)

def listMutationDestinations (toks : List Token) : Option (List Text) :=
  match toks with
  | subcommand :: _ :: rest =>
    if subcommand.quoted then none
    else if ["APPEND", "PREPEND", "INSERT", "REMOVE_ITEM", "REMOVE_AT", "REMOVE_DUPLICATES",
        "FILTER", "REVERSE", "SORT"].any (isWord · subcommand) then mutationVariablesAt toks [1]
    else if isWord "LENGTH" subcommand then mutationVariablesAt toks [2]
    else if isWord "GET" subcommand then
      if toks.length < 4 then none else mutationVariablesAt toks [toks.length - 1]
    else if isWord "SUBLIST" subcommand then mutationVariablesAt toks [4]
    else if isWord "FIND" subcommand ∨ isWord "JOIN" subcommand then mutationVariablesAt toks [3]
    else if isWord "POP_BACK" subcommand ∨ isWord "POP_FRONT" subcommand then
      mutationVariablesAt toks ((List.range (toks.length - 1)).map (· + 1))
    else if isWord "TRANSFORM" subcommand then
      (transformIndex rest 2).bind (fun index => mutationVariablesAt toks [index])
    else none
  | _ => none

def invalidated : SerializedValue := { resolution := some .malformedReference }

/-- `handleListAppend`; `none` is a statement that is not of a known shape. -/
def handleListAppend (toks : List Token) (env : VarEnv) (call : Call) : Option VarEnv :=
  match toks with
  | subcommand :: list :: rest =>
    if subcommand.quoted then none
    else if subcommand.text ≠ "APPEND".toList then
      (listMutationDestinations toks).map (fun destinations =>
        if call.active = .isFalse then env
        else destinations.foldl (fun env name => env.setValue name invalidated) env)
    else
      some (env.setValue list.text (appendSerializedValue
        ((env.values.lookup list.text).getD {}) (storedValue env call rest)))
  | _ => none

end McpLocalHub.PatchesApply.Assignments
