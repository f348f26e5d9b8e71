/- Module: LastFailure/CommandLine
   source: internal/vcpkgmcp/lastfailure/wrapper.go
   digest: The two splitters of a recorded command line undo the quoting. -/

import McpLocalHub.CMakeGraph.Lexer
import McpLocalHub.Foundation.GoText

set_option autoImplicit false

namespace McpLocalHub.LastFailure.CommandLine

open List

open CMakeGraph.Lexer (Text)
open Foundation.GoText (isSpace)

/-! A text is a sequence of bytes, each the character of its code, for the first splitter, and the
sequence of its runes for the second. -/

/-- What both splitters build: the arguments so far and the one being read. `started` tells an
empty quoted argument from none. -/
structure Words where
  args : List Text := []
  cur : Text := []
  started : Bool := false

def Words.flush (w : Words) : Words := if w.started then { args := w.args ++ [w.cur] } else w

def Words.write (w : Words) (text : Text) : Words := { w with cur := w.cur ++ text, started := true }

@[simp]
theorem Words.write_write (w : Words) (first second : Text) :
    (w.write first).write second = w.write (first ++ second) := by
  simp only [Words.write, append_assoc]

theorem Words.flush_write (args : List Text) (arg : Text) :
    (Words.write { args := args } arg).flush = { args := args ++ [arg] } := rfl

def slashRun : Text → ℕ
  | [] => 0
  | c :: rest => if c = '\\' then slashRun rest + 1 else 0

def behindSlashes (text : Text) : Text := text.drop (slashRun text)

def runTurn (w : Words) (n : ℕ) (behind : Text) : Words × Text :=
  if behind.head? = some '"' then
    if n % 2 = 1 then (w.write (List.replicate (n / 2) '\\' ++ ['"']), behind.tail)
    else (w.write (List.replicate (n / 2) '\\'), behind)
  else (w.write (List.replicate n '\\'), behind)

/-- One turn of the loop of `SplitWindowsCommandLine` at the byte `c`, with the quote mode after it
and the text left. -/
def windowsTurn (w : Words) (inQuotes : Bool) (c : Char) (rest : Text) : Words × Bool × Text :=
  if c = '\\' then
    let run := runTurn w (slashRun rest + 1) (behindSlashes rest)
    (run.1, inQuotes, run.2)
  else if c = '"' then
    if inQuotes = true ∧ rest.head? = some '"' then (w.write ['"'], false, rest.tail)
    else (w.write [], !inQuotes, rest)
  else if (c = ' ' ∨ c = '\t') ∧ inQuotes = false then (w.flush, inQuotes, rest)
  else (w.write [c], inQuotes, rest)

theorem windowsTurn_shorter (w : Words) (inQuotes : Bool) (c : Char) (rest : Text) :
    (windowsTurn w inQuotes c rest).2.2.length ≤ rest.length := by
  have dropped : (behindSlashes rest).length ≤ rest.length := (drop_suffix _ rest).length_le
  have shorter (text : Text) : text.tail.length ≤ text.length := (tail_suffix text).length_le
  rw [windowsTurn]
  split_ifs
  · dsimp only [runTurn]
    split_ifs
    · exact Nat.le_trans (shorter _) dropped
    · exact dropped
    · exact dropped
  all_goals first | exact shorter rest | exact Nat.le_refl _

def readWindows (w : Words) (inQuotes : Bool) : Text → Words
  | [] => w
  | c :: rest =>
    let turn := windowsTurn w inQuotes c rest
    readWindows turn.1 turn.2.1 turn.2.2
termination_by text => text.length
decreasing_by exact Nat.lt_succ_of_le (windowsTurn_shorter w inQuotes c rest)

def splitWindowsCommandLine (s : Text) : List Text := (readWindows {} false s).flush.args

structure Posix where
  words : Words := {}
  quote : Option Char := none
  escaped : Bool := false

def posixTurn (s : Posix) (r : Char) : Posix :=
  if s.escaped then
    let kept := if s.quote = some '"' ∧ r ∉ ['$', '\x60', '"', '\\', '\n'] then ['\\'] else []
    { s with words := s.words.write (kept ++ if r ≠ '\n' then [r] else []), escaped := false }
  else if s.quote = some '\'' then
    if r = '\'' then { s with words := s.words.write [], quote := none }
    else { s with words := s.words.write [r] }
  else if s.quote = some '"' then
    if r = '"' then { s with words := s.words.write [], quote := none }
    else if r = '\\' then { s with words := s.words.write [], escaped := true }
    else { s with words := s.words.write [r] }
  else if r = '\\' then { s with words := s.words.write [], escaped := true }
  else if r = '\'' ∨ r = '"' then { s with words := s.words.write [], quote := some r }
  else if isSpace r then { s with words := s.words.flush }
  else { s with words := s.words.write [r] }

def posixResult (s : Posix) : Except String (List Text) :=
  if s.escaped ∨ s.quote ≠ none then .error "unterminated POSIX command quoting"
  else .ok s.words.flush.args

def splitPOSIXCommandLine (s : Text) : Except String (List Text) :=
  posixResult (s.foldl posixTurn {})

/-- The backslashes of a run are doubled before a quote and at the end, and a quote has one more
before it. -/
def windowsEscaped : Text → Text
  | [] => ['"']
  | c :: rest =>
    if c = '\\' then
      if (behindSlashes rest).head?.getD '"' = '"' then '\\' :: '\\' :: windowsEscaped rest
      else '\\' :: windowsEscaped rest
    else if c = '"' then '\\' :: '"' :: windowsEscaped rest
    else c :: windowsEscaped rest

def windowsBlank (c : Char) : Bool := decide (c = ' ' ∨ c = '\t')

inductive WindowsWritten : Text → Text → Prop
  | quoted (arg : Text) : WindowsWritten arg ('"' :: windowsEscaped arg)
  | bare (arg : Text) (nonempty : arg ≠ []) (plain : ∀ c ∈ arg, windowsBlank c = false ∧ c ≠ '"') :
      WindowsWritten arg arg

def singleEscape (c : Char) : Text := if c = '\'' then ['\'', '\\', '\'', '\''] else [c]

def doubleEscape (c : Char) : Text := if c ∈ ['"', '\\', '$', '\x60'] then ['\\', c] else [c]

inductive PosixWritten : Text → Text → Prop
  | single (arg : Text) : PosixWritten arg ('\'' :: arg.flatMap singleEscape ++ ['\''])
  | double (arg : Text) : PosixWritten arg ('"' :: arg.flatMap doubleEscape ++ ['"'])

inductive Line (Written : Text → Text → Prop) (blank : Char → Bool) : List Text → Text → Prop
  | none : Line Written blank [] []
  | last {arg text : Text} (written : Written arg text) : Line Written blank [arg] text
  | more {arg text gap line : Text} {next : Text} {args : List Text} (written : Written arg text)
      (nonempty : gap ≠ []) (blanks : ∀ c ∈ gap, blank c = true)
      (others : Line Written blank (next :: args) line) :
      Line Written blank (arg :: next :: args) (text ++ (gap ++ line))

section Reading

variable {Written : Text → Text → Prop} {blank : Char → Bool} {β : Type} (read : Words → Text → β)

theorem read_blanks (skips : ∀ w c tail, blank c = true → read w (c :: tail) = read w.flush tail)
    (args : List Text) (gap tail : Text) (blanks : ∀ c ∈ gap, blank c = true) :
    read { args := args } (gap ++ tail) = read { args := args } tail := by
  induction gap with
  | nil => rfl
  | cons c gap ih =>
    rw [forall_mem_cons] at blanks
    rw [cons_append, skips _ _ _ blanks.1]
    exact ih blanks.2

/-- A splitter that ends an argument at a blank and at the end, and reads a written argument up to
there, gives back a line. -/
theorem read_line (result : List Text → β) (ends : ∀ w, read w [] = result w.flush.args)
    (skips : ∀ w c tail, blank c = true → read w (c :: tail) = read w.flush tail)
    (word : ∀ args arg text tail, Written arg text → (∀ c ∈ tail.head?, blank c = true) →
      read { args := args } (text ++ tail) = read (Words.write { args := args } arg) tail)
    {args : List Text} {line : Text} (written : Line Written blank args line) (done : List Text) :
    read { args := done } line = result (done ++ args) := by
  induction written generalizing done with
  | none =>
    rw [ends, append_nil]
    rfl
  | @last arg text written =>
    have whole := word done arg text [] written nofun
    rw [append_nil] at whole
    rw [whole, ends, Words.flush_write]
  | @more arg text gap line next args written nonempty blanks _ ih =>
    obtain ⟨c, gap, rfl⟩ := exists_cons_of_ne_nil nonempty
    rw [forall_mem_cons] at blanks
    rw [word done arg text _ written (by rintro _ ⟨⟩; exact blanks.1), cons_append,
      skips _ _ _ blanks.1, Words.flush_write, read_blanks read skips _ _ _ blanks.2, ih,
      append_assoc]
    rfl

theorem read_each (code : Text → Text) (plain : Char → Prop)
    (one : ∀ w c arg, (∀ d ∈ c :: arg, plain d) → read w (code (c :: arg)) = read (w.write [c]) (code arg))
    (w : Words) (arg : Text) (all : ∀ d ∈ arg, plain d) (done : Text) :
    read (w.write done) (code arg) = read (w.write (done ++ arg)) (code []) := by
  induction arg generalizing done with
  | nil => rw [append_nil]
  | cons c arg ih =>
    rw [one _ c arg all, Words.write_write, ih (forall_mem_cons.mp all).2, append_assoc]
    rfl

end Reading

section Windows

variable (w : Words) {inQuotes : Bool} {c : Char} (rest : Text)

theorem readWindows_cons :
    readWindows w inQuotes (c :: rest) =
      readWindows (windowsTurn w inQuotes c rest).1 (windowsTurn w inQuotes c rest).2.1
        (windowsTurn w inQuotes c rest).2.2 := by
  rw [readWindows]

theorem readWindows_char (slash : c ≠ '\\') (quote : c ≠ '"')
    (blank : windowsBlank c = true → inQuotes = true) :
    readWindows w inQuotes (c :: rest) = readWindows (w.write [c]) inQuotes rest := by
  have inside : ¬((c = ' ' ∨ c = '\t') ∧ inQuotes = false) := by
    rintro ⟨isBlank, outside⟩
    exact absurd (blank (decide_eq_true isBlank)) (by rw [outside]; exact Bool.false_ne_true)
  rw [readWindows_cons, windowsTurn, if_neg slash, if_neg quote, if_neg inside]

theorem readWindows_blank (blank : windowsBlank c = true) :
    readWindows w false (c :: rest) = readWindows w.flush false rest := by
  have isBlank : c = ' ' ∨ c = '\t' := of_decide_eq_true blank
  have slash : c ≠ '\\' := by rcases isBlank with rfl | rfl <;> decide
  have quote : c ≠ '"' := by rcases isBlank with rfl | rfl <;> decide
  rw [readWindows_cons, windowsTurn, if_neg slash, if_neg quote, if_pos ⟨isBlank, rfl⟩]

theorem readWindows_open :
    readWindows w false ('"' :: rest) = readWindows (w.write []) true rest := by
  rw [readWindows_cons, windowsTurn, if_neg (by decide), if_pos rfl, if_neg (fun h => nomatch h.1)]
  rfl

theorem readWindows_close (next : rest.head? ≠ some '"') :
    readWindows w true ('"' :: rest) = readWindows (w.write []) false rest := by
  rw [readWindows_cons, windowsTurn, if_neg (by decide), if_pos rfl, if_neg (fun h => next h.2)]
  rfl

theorem slashRun_slash : slashRun ('\\' :: rest) = slashRun rest + 1 := rfl

theorem behindSlashes_slash : behindSlashes ('\\' :: rest) = behindSlashes rest := rfl

theorem slashRun_other (slash : c ≠ '\\') : slashRun (c :: rest) = 0 := if_neg slash

theorem behindSlashes_other (slash : c ≠ '\\') : behindSlashes (c :: rest) = c :: rest := by
  rw [behindSlashes, slashRun_other rest slash]
  rfl

theorem behindSlashes_escaped (arg tail : Text) :
    (behindSlashes (windowsEscaped arg ++ tail)).head? = some ((behindSlashes arg).head?.getD '"') := by
  induction arg with
  | nil => rfl
  | cons c arg ih =>
    rw [windowsEscaped]
    split_ifs with slash _ quote
    · rw [slash]
      exact ih
    · rw [slash]
      exact ih
    · rw [quote]
      rfl
    · rw [cons_append, behindSlashes_other _ slash, behindSlashes_other _ slash]
      rfl

theorem readWindows_run :
    readWindows w inQuotes ('\\' :: rest) =
      readWindows (runTurn w (slashRun rest + 1) (behindSlashes rest)).1 inQuotes
        (runTurn w (slashRun rest + 1) (behindSlashes rest)).2 := by
  rw [readWindows_cons, windowsTurn, if_pos rfl]

theorem readWindows_slash (next : (behindSlashes rest).head? ≠ some '"') :
    readWindows w inQuotes ('\\' :: rest) = readWindows (w.write ['\\']) inQuotes rest := by
  rw [readWindows_run, runTurn, if_neg next]
  cases rest with
  | nil => rfl
  | cons c rest =>
    by_cases slash : c = '\\'
    · subst slash
      rw [behindSlashes_slash] at next
      rw [readWindows_run, runTurn, if_neg next, Words.write_write]
      rfl
    · rw [slashRun_other rest slash, behindSlashes_other rest slash]
      rfl

theorem readWindows_double (next : (behindSlashes rest).head? = some '"') :
    readWindows w inQuotes ('\\' :: '\\' :: rest) = readWindows (w.write ['\\']) inQuotes rest := by
  cases rest with
  | nil => nomatch next
  | cons c rest =>
    by_cases slash : c = '\\'
    · subst slash
      have twice (n : ℕ) : runTurn w (n + 2) (behindSlashes rest) =
          runTurn (w.write ['\\']) n (behindSlashes rest) := by
        simp only [runTurn, if_pos (show (behindSlashes rest).head? = some '"' from next),
          Nat.add_mod_right, Nat.add_div_right n Nat.two_pos, Words.write_write, replicate_succ]
        rfl
      rw [readWindows_run, readWindows_run]
      exact congrArg (fun run : Words × Text => readWindows run.1 inQuotes run.2)
        (twice (slashRun rest + 1))
    · rw [behindSlashes_other rest slash] at next
      rw [readWindows_run, slashRun_slash, slashRun_other rest slash, behindSlashes_slash,
        behindSlashes_other rest slash, Option.some.inj next]
      rfl

theorem readWindows_quote :
    readWindows w inQuotes ('\\' :: '"' :: rest) = readWindows (w.write ['"']) inQuotes rest := by
  rw [readWindows_run, slashRun_other rest (by decide), behindSlashes_other rest (by decide)]
  rfl

theorem readWindows_escape (arg tail : Text) :
    readWindows w true (windowsEscaped (c :: arg) ++ tail) =
      readWindows (w.write [c]) true (windowsEscaped arg ++ tail) := by
  have behind := behindSlashes_escaped arg tail
  rw [windowsEscaped]
  split_ifs with slash doubled quote
  · rw [doubled] at behind
    rw [slash]
    exact readWindows_double w _ behind
  · rw [slash]
    exact readWindows_slash w _ (fun same => doubled (Option.some.inj (behind.symm.trans same)))
  · rw [quote]
    exact readWindows_quote w _
  · exact readWindows_char w _ slash quote (fun _ => rfl)

end Windows

theorem head_ne_quote {tail : Text} (next : ∀ d ∈ tail.head?, windowsBlank d = true) :
    tail.head? ≠ some '"' := fun same => absurd (next _ same) (by decide)

theorem behindSlashes_bare {tail : Text} (next : ∀ d ∈ tail.head?, windowsBlank d = true)
    (arg : Text) (plain : ∀ c ∈ arg, windowsBlank c = false ∧ c ≠ '"') :
    (behindSlashes (arg ++ tail)).head? ≠ some '"' := by
  induction arg with
  | nil =>
    cases tail with
    | nil => nofun
    | cons d tail =>
      have slash : d ≠ '\\' := fun same => absurd (next d rfl) (by rw [same]; decide)
      rw [nil_append, behindSlashes_other tail slash]
      exact head_ne_quote next
  | cons c arg ih =>
    rw [forall_mem_cons] at plain
    by_cases slash : c = '\\'
    · rw [slash]
      exact ih plain.2
    · rw [cons_append, behindSlashes_other _ slash]
      exact fun same => plain.1.2 (Option.some.inj same)

theorem readWindows_written (args : List Text) (arg text tail : Text)
    (written : WindowsWritten arg text) (next : ∀ c ∈ tail.head?, windowsBlank c = true) :
    readWindows { args := args } false (text ++ tail) =
      readWindows (Words.write { args := args } arg) false tail := by
  cases written with
  | quoted =>
    rw [cons_append, readWindows_open, read_each (readWindows · true) (windowsEscaped · ++ tail)
      (fun _ => True) (fun w c arg _ => readWindows_escape w arg tail) _ arg (fun _ _ => trivial)]
    exact (readWindows_close _ tail (head_ne_quote next)).trans
      (by rw [Words.write_write, append_nil]; rfl)
  | bare nonempty plain =>
    have one (w : Words) (c : Char) (arg : Text)
        (plain : ∀ d ∈ c :: arg, windowsBlank d = false ∧ d ≠ '"') :
        readWindows w false (c :: arg ++ tail) = readWindows (w.write [c]) false (arg ++ tail) := by
      rw [forall_mem_cons] at plain
      by_cases slash : c = '\\'
      · rw [slash]
        exact readWindows_slash w _ (behindSlashes_bare next arg plain.2)
      · exact readWindows_char w _ slash plain.1.2
          (fun blank => absurd blank (ne_of_eq_of_ne plain.1.1 Bool.false_ne_true))
    obtain ⟨c, arg, rfl⟩ := exists_cons_of_ne_nil nonempty
    rw [one _ c arg plain]
    exact read_each (readWindows · false) (· ++ tail) _ one _ arg (forall_mem_cons.mp plain).2 [c]

theorem singleEscape_writes (w : Words) (c : Char) :
    (singleEscape c).foldl posixTurn ⟨w, some '\'', false⟩ = ⟨w.write [c], some '\'', false⟩ := by
  rw [singleEscape]
  split_ifs with quote
  · subst quote
    simp [posixTurn]
  · simp [posixTurn, quote]

theorem doubleEscape_writes (w : Words) (c : Char) :
    (doubleEscape c).foldl posixTurn ⟨w, some '"', false⟩ = ⟨w.write [c], some '"', false⟩ := by
  rw [doubleEscape]
  split_ifs with special
  · simp only [mem_cons, not_mem_nil, or_false] at special
    rcases special with rfl | rfl | rfl | rfl <;> simp [posixTurn]
  · simp only [mem_cons, not_or] at special
    simp [posixTurn, special.1, special.2.1]

theorem posix_written (args : List Text) (arg text : Text) (written : PosixWritten arg text) :
    text.foldl posixTurn ⟨{ args := args }, none, false⟩ =
      ⟨Words.write { args := args } arg, none, false⟩ := by
  have inside (quote : Char) (code : Char → Text) (writes : ∀ (w : Words) (c : Char),
      (code c).foldl posixTurn ⟨w, some quote, false⟩ = ⟨w.write [c], some quote, false⟩) :
      (arg.flatMap code).foldl posixTurn ⟨Words.write { args := args } [], some quote, false⟩ =
        ⟨Words.write { args := args } arg, some quote, false⟩ :=
    read_each (fun w text => text.foldl posixTurn ⟨w, some quote, false⟩) (List.flatMap code)
      (fun _ => True) (fun w c arg _ => by rw [flatMap_cons, foldl_append, writes]) _ arg
      (fun _ _ => trivial) []
  cases written with
  | single =>
    refine foldl_append.trans ((congrArg (List.foldl posixTurn · ['\''])
      (inside '\'' _ singleEscape_writes)).trans ?_)
    simp [posixTurn]
  | double =>
    refine foldl_append.trans ((congrArg (List.foldl posixTurn · ['"'])
      (inside '"' _ doubleEscape_writes)).trans ?_)
    simp [posixTurn]

theorem posixTurn_blank (w : Words) (c : Char) (blank : isSpace c = true) :
    posixTurn ⟨w, none, false⟩ c = ⟨w.flush, none, false⟩ := by
  have other (d : Char) (plain : isSpace d = false) : c ≠ d := by
    rintro rfl
    exact absurd blank (by rw [plain]; exact Bool.false_ne_true)
  simp [posixTurn, blank, other '\\' (by decide), other '\'' (by decide), other '"' (by decide)]

/-- Each splitter gives back the arguments that a line of quoted arguments was made of. -/
theorem split_inverts_quoting :
    (∀ args line, Line WindowsWritten windowsBlank args line → splitWindowsCommandLine line = args) ∧
    (∀ args line, Line PosixWritten isSpace args line →
      splitPOSIXCommandLine line = .ok args) := by
  constructor
  · intro args line written
    exact read_line (fun w text => (readWindows w false text).flush.args) id
      (fun w => by rw [readWindows]; rfl)
      (fun w c tail blank => by rw [readWindows_blank w tail blank])
      (fun args arg text tail written next => by rw [readWindows_written args arg text tail written next])
      written []
  · intro args line written
    exact read_line (fun w text => posixResult (text.foldl posixTurn ⟨w, none, false⟩)) .ok
      (fun w => rfl)
      (fun w c tail blank => by rw [foldl_cons, posixTurn_blank w c blank])
      (fun args arg text tail written _ => by
        rw [foldl_append, posix_written args arg text written])
      written []

theorem split_inverts_quoting_two :
    splitWindowsCommandLine ('"' :: windowsEscaped ['a', ' ', '\\'] ++ ([' ', '\t'] ++ ['b', '\\'])) =
        [['a', ' ', '\\'], ['b', '\\']] ∧
      splitPOSIXCommandLine ('\'' :: List.flatMap singleEscape ['a', '\''] ++ ['\''] ++
        (['\n'] ++ ('"' :: List.flatMap doubleEscape ['$'] ++ ['"']))) = .ok [['a', '\''], ['$']] :=
  ⟨split_inverts_quoting.1 _ _ (.more (.quoted _) nofun (all_eq_true.mp rfl)
    (.last (.bare _ nofun (by simp [windowsBlank])))),
    split_inverts_quoting.2 _ _ (.more (.single _) nofun (all_eq_true.mp rfl) (.last (.double _)))⟩

end McpLocalHub.LastFailure.CommandLine
