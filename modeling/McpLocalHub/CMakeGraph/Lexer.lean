/- Module: CMakeGraph/Lexer
   source: internal/cmakegraph/cmakegraph.go
   digest: The forward pass over a CMake file that finds its top-level command calls, and where
   it ends. -/

import Mathlib.Data.List.Basic

set_option autoImplicit false

namespace McpLocalHub.CMakeGraph.Lexer

abbrev Text := List Char

def isSpace (c : Char) : Bool := decide (c = ' ' ∨ c = '\t' ∨ c = '\r' ∨ c = '\n')

def isCommandGapSpace (c : Char) : Bool := decide (c = ' ' ∨ c = '\t')

def isIdentStart (c : Char) : Bool :=
  decide (c = '_' ∨ 'a' ≤ c ∧ c ≤ 'z' ∨ 'A' ≤ c ∧ c ≤ 'Z')

def isIdentCont (c : Char) : Bool := isIdentStart c || decide ('0' ≤ c ∧ c ≤ '9')

/-! A loop of the source that moves an index is a recursion on the text behind the index. Where the
index jumps, the number of characters to pass over is carried along. -/

def matchBracketOpen : Text → Option (ℕ × ℕ)
  | '[' :: rest =>
    let eq := (rest.takeWhile (· = '=')).length
    if (rest.drop eq).head? = some '[' then some (eq + 2, eq) else none
  | _ => none

def findBracketClose (eq : ℕ) : Text → Option ℕ
  | [] => none
  | c :: rest =>
    if (']' :: List.replicate eq '=' ++ [']']).isPrefixOf (c :: rest) then some (eq + 2)
    else (findBracketClose eq rest).map (· + 1)

/-- The length behind an opening quote up to its closing one. A backslash takes the next character
with it. -/
def skipQuoted : Text → Option ℕ
  | [] => none
  | '"' :: _ => some 1
  | '\\' :: _ :: rest => (skipQuoted rest).map (· + 2)
  | _ :: rest => (skipQuoted rest).map (· + 1)

inductive BracketArg
  | literal
  | unclosed
  | closed (length : ℕ)

def skipBracketArg (text : Text) : BracketArg :=
  match matchBracketOpen text with
  | none => .literal
  | some (opener, eq) =>
    match findBracketClose eq (text.drop opener) with
    | none => .unclosed
    | some length => .closed (opener + length)

/-- The length of a comment behind its `#`, `none` for a bracket comment without its closer. -/
def skipComment (rest : Text) : Option ℕ :=
  match matchBracketOpen rest with
  | some (opener, eq) => (findBracketClose eq (rest.drop opener)).map (opener + ·)
  | none => some (rest.takeWhile (· ≠ '\n')).length

/-- The position of the parenthesis that closes the list which the text begins in, `none` without
one. -/
def scanArgList : Text → (skip depth pos : ℕ) → Option ℕ
  | [], _, _, _ => none
  | _ :: rest, skip + 1, depth, pos => scanArgList rest skip depth (pos + 1)
  | c :: rest, 0, depth, pos =>
    if c = '"' then
      match skipQuoted rest with
      | none => none
      | some length => scanArgList rest length depth (pos + 1)
    else if c = '\\' then scanArgList rest 1 depth (pos + 1)
    else if c = '[' then
      match skipBracketArg (c :: rest) with
      | .literal => scanArgList rest 0 depth (pos + 1)
      | .unclosed => none
      | .closed length => scanArgList rest (length - 1) depth (pos + 1)
    else if c = '#' then
      match skipComment rest with
      | none => none
      | some length => scanArgList rest length depth (pos + 1)
    else if c = '(' then scanArgList rest 0 (depth + 1) (pos + 1)
    else if c = ')' then
      if depth = 1 then some pos else scanArgList rest 0 (depth - 1) (pos + 1)
    else scanArgList rest 0 depth (pos + 1)

structure Command where
  name : Text
  nameOffset : ℕ
  argStart : ℕ
  argEnd : ℕ
  malformed : Bool

/-- Why the pass ended. Only the command limit is reported; an unterminated bracket comment leaves
no trace. -/
inductive ScanEnd
  | eof | commandLimit | unterminatedCall | unterminatedComment
  deriving DecidableEq

structure Scan where
  commands : List Command
  ended : ScanEnd

def Scan.push (c : Command) (scan : Scan) : Scan := ⟨c :: scan.commands, scan.ended⟩

def scanFrom (maxCommands : ℕ) : Text → (skip pos found : ℕ) → Scan
  | [], _, _, _ => ⟨[], .eof⟩
  | _ :: rest, skip + 1, pos, found => scanFrom maxCommands rest skip (pos + 1) found
  | c :: rest, 0, pos, found =>
    if isSpace c then scanFrom maxCommands rest 0 (pos + 1) found
    else if c = '#' then
      match skipComment rest with
      | none => ⟨[], .unterminatedComment⟩
      | some length => scanFrom maxCommands rest length (pos + 1) found
    else if isIdentStart c then
      let tail := rest.takeWhile isIdentCont
      let name := (c :: tail).map Char.toLower
      let gap := ((rest.drop tail.length).takeWhile isCommandGapSpace).length
      match rest.drop (tail.length + gap) with
      | '(' :: args =>
        if maxCommands ≤ found then ⟨[], .commandLimit⟩
        else
          let argStart := pos + tail.length + gap + 2
          match scanArgList args 0 1 argStart with
          | some argEnd =>
            (scanFrom maxCommands rest (argEnd - pos) (pos + 1) (found + 1)).push
              ⟨name, pos, argStart, argEnd, false⟩
          | none => ⟨[⟨name, pos, argStart, argStart + args.length, true⟩], .unterminatedCall⟩
      | _ => scanFrom maxCommands rest tail.length (pos + 1) found
    else scanFrom maxCommands rest 0 (pos + 1) found

def scanTopLevelCommands (data : Text) (maxCommands : ℕ) : Scan := scanFrom maxCommands data 0 0 0

def lineStarts : Text → ℕ → List ℕ
  | [], _ => []
  | c :: rest, pos => if c = '\n' then (pos + 1) :: lineStarts rest (pos + 1) else lineStarts rest (pos + 1)

def buildLineIndex (data : Text) : List ℕ := 0 :: lineStarts data 0

def lineFromIndex (lines : List ℕ) (offset : ℕ) : ℕ := (lines.takeWhile (· ≤ offset)).length

def Scan.Coherent (scan : Scan) : Prop :=
  (∀ c ∈ scan.commands, c.malformed = true →
    scan.ended = .unterminatedCall ∧ scan.commands.getLast? = some c) ∧
  (scan.ended = .unterminatedCall → ∃ c, scan.commands.getLast? = some c ∧ c.malformed = true)

theorem coherent_nil {ended : ScanEnd} (other : ended ≠ .unterminatedCall) :
    Scan.Coherent ⟨[], ended⟩ :=
  ⟨nofun, fun same => absurd same other⟩

theorem Scan.Coherent.push {c : Command} {scan : Scan} (coherent : scan.Coherent)
    (closed : c.malformed = false) : (scan.push c).Coherent := by
  constructor
  · intro d listed bad
    rcases List.mem_cons.mp listed with rfl | later
    · rw [closed] at bad
      cases bad
    · obtain ⟨ended, last⟩ := coherent.1 d later bad
      refine ⟨ended, ?_⟩
      change (c :: scan.commands).getLast? = some d
      rw [List.getLast?_cons, last]
      rfl
  · intro ended
    obtain ⟨d, last, bad⟩ := coherent.2 ended
    refine ⟨d, ?_, bad⟩
    change (c :: scan.commands).getLast? = some d
    rw [List.getLast?_cons, last]
    rfl

theorem scanFrom_coherent (maxCommands : ℕ) (text : Text) (skip pos found : ℕ) :
    (scanFrom maxCommands text skip pos found).Coherent := by
  induction text generalizing skip pos found with
  | nil => exact coherent_nil (by decide)
  | cons c rest ih =>
    cases skip with
    | succ skip => exact ih skip (pos + 1) found
    | zero =>
      rw [scanFrom]
      split
      · exact ih 0 (pos + 1) found
      split
      · split
        · exact coherent_nil (by decide)
        · exact ih _ (pos + 1) found
      split
      · dsimp only
        split
        · split
          · exact coherent_nil (by decide)
          split
          · exact (ih _ (pos + 1) (found + 1)).push rfl
          · refine ⟨fun d listed _ => ⟨rfl, ?_⟩, fun _ => ⟨_, rfl, rfl⟩⟩
            rw [List.mem_singleton.mp listed]
            rfl
        · exact ih _ (pos + 1) found
      · exact ih 0 (pos + 1) found

theorem scan_coherent (data : Text) (maxCommands : ℕ) :
    (scanTopLevelCommands data maxCommands).Coherent :=
  scanFrom_coherent maxCommands data 0 0 0

end McpLocalHub.CMakeGraph.Lexer
