/- Module: PatchesApply/LexerAgreement
   source: internal/vcpkgmcp/patchesapply/lexer.go
   digest: Both scanners take the same parts as a whole, unless a bracket opens inside a
   bareword. -/

import McpLocalHub.PatchesApply.Lexer

set_option autoImplicit false

/-!
The arguments of a statement are the text up to its closing parenthesis. The scanners take the same turns except at a bareword, which is one token and many turns of the
statement scanner.
-/

namespace McpLocalHub.PatchesApply.LexerAgreement

open CMakeGraph.Lexer (Text matchBracketOpen findBracketClose)
open Lexer List

/-- A bracket argument that the statement scanner skips stands directly behind a byte of a
bareword. -/
def bracketInBareword : Text → (skip : ℕ) → (bare : Bool) → Bool
  | [], _, _ => false
  | _ :: rest, skip + 1, bare => bracketInBareword rest skip bare
  | c :: rest, 0, bare =>
    match argTurn (c :: rest) with
    | none => false
    | some (length, mark) =>
      (bare && decide (mark = .skipped .bracket)) ||
        bracketInBareword rest (length - 1) (decide (mark = .bare))

section Before

variable {a tail : Text} {n eq : ℕ}

theorem skipQuoted_other {c : Char} {rest : Text} (notSlash : c ≠ '\\') (notQuote : c ≠ '"') :
    skipQuoted (c :: rest) = skipQuoted rest + 1 := by
  rw [skipQuoted]
  · exact fun _ _ slash => absurd slash notSlash
  · exact fun quote => absurd quote notQuote

theorem skipQuoted_before (inside : skipQuoted (a ++ ')' :: tail) ≤ a.length) :
    skipQuoted a = skipQuoted (a ++ ')' :: tail) := by
  fun_induction skipQuoted a with
  | case1 => exact (Nat.le_zero.mp inside).symm
  | case2 x rest ih =>
    simp only [cons_append, skipQuoted, length_cons] at inside ⊢
    rw [ih (by omega)]
  | case3 rest => simp [skipQuoted]
  | case4 c rest notEscape notQuote ih =>
    by_cases slash : c = '\\'
    · cases rest with
      | nil => simp [slash, skipQuoted] at inside
      | cons x rest => exact (notEscape x rest slash rfl).elim
    · rw [cons_append, skipQuoted_other slash notQuote] at inside ⊢
      rw [ih (Nat.le_of_succ_le_succ inside)]

theorem lineLength_before (inside : lineLength (a ++ ')' :: tail) ≤ a.length) :
    lineLength a = lineLength (a ++ ')' :: tail) := by
  induction a with
  | nil => exact (Nat.le_zero.mp inside).symm
  | cons c rest ih =>
    simp only [cons_append, lineLength, length_cons] at inside ⊢
    split_ifs with ends
    · rfl
    · rw [if_neg ends] at inside
      rw [ih (by omega)]

theorem escapeLength_before (more : a ≠ []) : escapeLength (a ++ ')' :: tail) = escapeLength a := by
  match a with
  | [c] => simp [escapeLength]
  | c :: x :: rest =>
    by_cases crlf : c = '\r' ∧ x = '\n'
    · obtain ⟨rfl, rfl⟩ := crlf
      rfl
    · have single (rest : Text) : escapeLength (c :: x :: rest) = 1 := by
        rw [escapeLength]
        intro _ same
        obtain ⟨first, second⟩ := List.cons.inj same
        exact crlf ⟨first, (List.cons.inj second).1⟩
      rw [cons_append, cons_append, single, single]

theorem findBracketClose_pos {text : Text} (found : findBracketClose eq text = some n) : 1 ≤ n := by
  cases text with
  | nil => cases found
  | cons c rest =>
    rw [findBracketClose] at found
    split_ifs at found
    · cases found
      omega
    · obtain ⟨m, -, rfl⟩ := Option.map_eq_some_iff.mp found
      omega

theorem findBracketClose_before (found : findBracketClose eq (a ++ ')' :: tail) = some n)
    (inside : n ≤ a.length) : findBracketClose eq a = some n := by
  induction a generalizing n with
  | nil =>
    have positive := findBracketClose_pos found
    exact absurd (Nat.le_trans positive inside) (Nat.not_succ_le_zero 0)
  | cons c rest ih =>
    rw [cons_append, findBracketClose] at found
    rw [findBracketClose]
    simp only [ isPrefixOf_iff_prefix] at found ⊢
    have whole : c :: rest <+: c :: (rest ++ ')' :: tail) := prefix_append (c :: rest) _
    split_ifs at found with closes
    · cases found
      rw [if_pos (prefix_of_prefix_length_le closes whole (by simpa using inside))]
    · obtain ⟨m, later, rfl⟩ := Option.map_eq_some_iff.mp found
      rw [if_neg (fun here => closes (here.trans whole)), ih later (by simpa using inside)]
      rfl

theorem matchBracketOpen_before : matchBracketOpen (a ++ ')' :: tail) = matchBracketOpen a := by
  cases a with
  | nil => rfl
  | cons c rest =>
    by_cases bracket : c = '['
    · subst bracket
      have equals : ((rest ++ ')' :: tail).takeWhile (· = '=')).length =
          (rest.takeWhile (· = '=')).length := by
        rw [takeWhile_append]
        split_ifs with all
        · simp [all]
        · rfl
      have bound : (rest.takeWhile (· = '=')).length ≤ rest.length :=
        (takeWhile_sublist _).length_le
      rw [cons_append, matchBracketOpen, matchBracketOpen]
      simp only [equals, drop_append_of_le_length bound]
      cases (rest.drop (rest.takeWhile (· = '=')).length) with
      | nil => simp
      | cons x more => simp
    · have other (text : Text) : matchBracketOpen (c :: text) = none := by
        rw [matchBracketOpen]
        exact fun _ same => bracket (List.cons.inj same).1
      rw [cons_append, other, other]

end Before

section Turns

variable {text : Text} {n depth pos : ℕ}

theorem matchBracketOpen_bounds {opener eq : ℕ}
    (found : matchBracketOpen text = some (opener, eq)) : 1 ≤ opener ∧ opener ≤ text.length := by
  unfold matchBracketOpen at found
  split at found
  · rename_i rest
    dsimp only at found
    split_ifs at found with second
    cases found
    have more : 0 < (rest.drop (rest.takeWhile (· = '=')).length).length := by
      rw [length_pos_iff]
      intro none
      rw [none] at second
      cases second
    rw [length_drop] at more
    rw [length_cons]
    omega
  · cases found

structure Turned (text : Text) (n : ℕ) (mark : Mark) : Prop where
  pos : 1 ≤ n
  single : mark = .opens ∨ mark = .closes → n = 1
  closes : mark = .closes → text.head? = some ')'
  bracket : mark = .skipped .bracket → text.head? = some '['

theorem argTurn_turned {mark : Mark}
    (turn : argTurn text = some (n, mark)) : Turned text n mark := by
  cases text with
  | nil => cases turn
  | cons c rest =>
    have skips {n : ℕ} {kind : Kind} (pos : 1 ≤ n) (opener : kind = .bracket → c = '[') :
        Turned (c :: rest) n (.skipped kind) :=
      ⟨pos, by simp, by rintro ⟨⟩, by rintro ⟨⟩; exact congrArg some (opener rfl)⟩
    rw [argTurn] at turn
    split_ifs at turn with _ _ _ opener opens closes
    · cases turn
      exact ⟨by omega, by simp, by rintro ⟨⟩, by rintro ⟨⟩⟩
    · cases turn
      exact skips (by omega) (by rintro ⟨⟩)
    · split at turn
      · split at turn <;> cases turn <;> exact skips (by omega) (by rintro ⟨⟩)
      · cases turn
        exact skips (by omega) (by rintro ⟨⟩)
    · split at turn
      · rename_i bracket
        obtain ⟨m, -, same⟩ := Option.map_eq_some_iff.mp turn
        have positive := (matchBracketOpen_bounds bracket).1
        cases same
        exact skips (by omega) (fun _ => opener)
      · cases turn
        exact ⟨Nat.le_refl 1, by simp, by rintro ⟨⟩, by rintro ⟨⟩⟩
    · cases turn
      exact ⟨Nat.le_refl 1, fun _ => rfl, by rintro ⟨⟩, by rintro ⟨⟩⟩
    · cases turn
      exact ⟨Nat.le_refl 1, fun _ => rfl, fun _ => congrArg some closes, by rintro ⟨⟩⟩
    all_goals
      cases turn
      exact ⟨Nat.le_refl 1, by simp, by rintro ⟨⟩, by rintro ⟨⟩⟩

theorem drop_skipped {β : Type} (scan : Text → ℕ → ℕ → β)
    (ended : ∀ skip pos pos', scan [] skip pos = scan [] 0 pos')
    (skips : ∀ c rest skip pos, scan (c :: rest) (skip + 1) pos = scan rest skip (pos + 1))
    (text : Text) (skip pos : ℕ) : scan text skip pos = scan (text.drop skip) 0 (pos + skip) := by
  induction text generalizing skip pos with
  | nil => rw [drop_nil, ended]
  | cons c rest ih =>
    cases skip with
    | zero => rfl
    | succ skip => rw [skips, ih, drop_succ_cons, Nat.add_right_comm, Nat.add_assoc]

theorem scanArgs_drop (text : Text) (skip depth pos : ℕ) :
    scanArgs text skip depth pos = scanArgs (text.drop skip) 0 depth (pos + skip) :=
  drop_skipped (fun text skip pos => scanArgs text skip depth pos) (fun _ _ _ => rfl)
    (fun _ _ _ _ => rfl) text skip pos

theorem tokenizeFrom_drop (text : Text) (skip pos : ℕ) :
    tokenizeFrom text skip pos = tokenizeFrom (text.drop skip) 0 (pos + skip) :=
  drop_skipped tokenizeFrom (fun _ _ _ => rfl) (fun _ _ _ _ => rfl) text skip pos

theorem bracketInBareword_drop (text : Text) (skip : ℕ) (bare : Bool) :
    bracketInBareword text skip bare = bracketInBareword (text.drop skip) 0 bare :=
  drop_skipped (fun text skip _ => bracketInBareword text skip bare) (fun _ _ _ => rfl)
    (fun _ _ _ _ => rfl) text skip 0

theorem drop_turn {c : Char} {rest : Text} (positive : 1 ≤ n) :
    rest.drop (n - 1) = (c :: rest).drop n ∧ pos + 1 + (n - 1) = pos + n := by
  obtain ⟨m, rfl⟩ := Nat.exists_eq_add_of_le' positive
  exact ⟨rfl, by omega⟩

theorem scanArgs_plain {mark : Mark} (turn : argTurn text = some (n, mark))
    (plain : mark = .bare ∨ mark = .blank) :
    scanArgs text 0 depth pos = scanArgs (text.drop n) 0 depth (pos + n) := by
  have positive := (argTurn_turned turn).pos
  cases text with
  | nil => cases turn
  | cons c rest =>
    obtain ⟨cut, position⟩ := @drop_turn n pos c rest positive
    rw [← cut, ← position, ← scanArgs_drop, scanArgs, turn]
    rcases plain with rfl | rfl <;> rfl

theorem scanArgs_skipped {kind : Kind} (turn : argTurn text = some (n, .skipped kind)) :
    scanArgs text 0 depth pos = (scanArgs (text.drop n) 0 depth (pos + n)).map
      (fun found => (found.1, ⟨kind, pos, pos + n⟩ :: found.2)) := by
  have positive := (argTurn_turned turn).pos
  cases text with
  | nil => cases turn
  | cons c rest =>
    obtain ⟨cut, position⟩ := @drop_turn n pos c rest positive
    rw [scanArgs, turn]
    dsimp only
    rw [scanArgs_drop, cut, position]

theorem tokenizeFrom_turn {token : Option Token} {kind : Option Kind} (positive : 1 ≤ n)
    (turn : tokenTurn text = some (n, token, kind)) :
    tokenizeFrom text 0 pos = (tokenizeFrom (text.drop n) 0 (pos + n)).map (fun later =>
      (token.toList ++ later.1,
        (kind.map (fun kind => Region.mk kind pos (pos + n))).toList ++ later.2)) := by
  cases text with
  | nil => cases turn
  | cons c rest =>
    obtain ⟨cut, position⟩ := @drop_turn n pos c rest positive
    rw [tokenizeFrom, turn]
    dsimp only
    rw [tokenizeFrom_drop, cut, position]

theorem bracketInBareword_turn {mark : Mark} (turn : argTurn text = some (n, mark)) (bare : Bool) :
    bracketInBareword text 0 bare = ((bare && decide (mark = .skipped .bracket)) ||
      bracketInBareword (text.drop n) 0 (decide (mark = .bare))) := by
  have positive := (argTurn_turned turn).pos
  cases text with
  | nil => cases turn
  | cons c rest =>
    rw [bracketInBareword, turn]
    dsimp only
    rw [bracketInBareword_drop, (@drop_turn n 0 c rest positive).1]

theorem tokenizeFrom_start {skip : ℕ} {tokens : List Token} {regions : List Region}
    (scanned : tokenizeFrom text skip pos = some (tokens, regions)) :
    ∀ region ∈ regions, pos ≤ region.start := by
  induction text generalizing skip pos tokens regions with
  | nil =>
    cases scanned
    exact nofun
  | cons c rest ih =>
    cases skip with
    | succ skip => exact fun region listed => Nat.le_of_succ_le (ih scanned region listed)
    | zero =>
      rw [tokenizeFrom] at scanned
      split at scanned
      · cases scanned
      · obtain ⟨⟨later, regions'⟩, found, same⟩ := Option.map_eq_some_iff.mp scanned
        cases same
        intro region listed
        rcases mem_append.mp listed with first | listed
        · obtain ⟨kind, -, rfl⟩ := Option.map_eq_some_iff.mp (Option.mem_toList.mp first)
          exact Nat.le_refl pos
        · exact Nat.le_of_succ_le (ih found region listed)

theorem scanArgs_stop {skip stop : ℕ} {regions : List Region}
    (found : scanArgs text skip depth pos = some (stop, regions)) :
    ∃ before tail, text = before ++ ')' :: tail ∧ stop = pos + before.length := by
  induction text generalizing skip depth pos regions with
  | nil => cases found
  | cons c rest ih =>
    have later {skip depth : ℕ} {regions : List Region}
        (found : scanArgs rest skip depth (pos + 1) = some (stop, regions)) :
        ∃ before tail, c :: rest = before ++ ')' :: tail ∧ stop = pos + before.length := by
      obtain ⟨before, tail, rfl, rfl⟩ := ih found
      exact ⟨c :: before, tail, rfl, by rw [length_cons]; omega⟩
    cases skip with
    | succ skip => exact later found
    | zero =>
      rw [scanArgs] at found
      split at found
      · cases found
      · exact later found
      · rename_i turn
        split_ifs at found
        · cases found
          obtain rfl : c = ')' := Option.some.inj ((argTurn_turned turn).closes rfl)
          exact ⟨[], rest, rfl, rfl⟩
        · exact later found
      · obtain ⟨⟨stop', regions'⟩, inner, same⟩ := Option.map_eq_some_iff.mp found
        cases same
        exact later inner
      · exact later found

theorem scanArgs_ge {skip stop : ℕ} {regions : List Region}
    (found : scanArgs text skip depth pos = some (stop, regions)) : pos + skip ≤ stop := by
  rw [scanArgs_drop] at found
  obtain ⟨before, tail, -, rfl⟩ := scanArgs_stop found
  exact Nat.le_add_right _ _

end Turns

/-- What a turn of the token scanner has in common with one of the statement scanner, and how far a
bareword goes there. -/
def Agrees (text : Text) (n : ℕ) : Mark → Prop
  | .skipped kind => (∃ token, tokenTurn text = some (n, token, some kind)) ∧
      (kind ≠ .bracket → scanBareEnd text = 0)
  | .bare => tokenTurn text = some (bareToken text) ∧
      scanBareEnd text = n + scanBareEnd (text.drop n)
  | _ => n = 1 ∧ (∃ token, tokenTurn text = some (1, token, none)) ∧ scanBareEnd text = 0

section Same

variable {c : Char} {rest tail : Text} {n : ℕ} {mark : Mark}

theorem bracket_before {a : Text} {opener eq length : ℕ}
    (opened : matchBracketOpen a = some (opener, eq))
    (closed : findBracketClose eq ((a ++ ')' :: tail).drop opener) = some length)
    (inside : opener + length ≤ a.length) : findBracketClose eq (a.drop opener) = some length := by
  rw [drop_append_of_le_length (matchBracketOpen_bounds opened).2] at closed
  refine findBracketClose_before closed ?_
  rw [length_drop]
  omega

theorem scanBareEnd_other (notSlash : c ≠ '\\') : scanBareEnd (c :: rest) =
    if isSpaceOrNL c || c = '"' || c = '(' || c = ')' || c = '#' then 0 else scanBareEnd rest + 1 := by
  rw [scanBareEnd]
  · exact fun _ slash => absurd slash notSlash
  · exact fun _ _ slash => absurd slash notSlash

theorem agrees_escape (more : rest ≠ []) : Agrees ('\\' :: rest) (escapeLength rest + 1) .bare := by
  refine ⟨by simp [tokenTurn, isSpaceOrNL], ?_⟩
  by_cases crlf : ∃ later, rest = '\r' :: '\n' :: later
  · obtain ⟨later, rfl⟩ := crlf
    simp only [scanBareEnd, escapeLength, drop_succ_cons, drop_zero]
    omega
  · obtain ⟨x, later, rfl⟩ := exists_cons_of_ne_nil more
    have single : escapeLength (x :: later) = 1 := by
      rw [escapeLength]
      exact fun tail same => crlf ⟨tail, same⟩
    have pair : scanBareEnd ('\\' :: x :: later) = scanBareEnd later + 2 := by
      rw [scanBareEnd]
      exact fun tail first second => crlf ⟨tail, by rw [first, second]⟩
    rw [single, pair]
    simp only [drop_succ_cons, drop_zero]
    omega

theorem skipQuoted_pos {text : Text} (more : text ≠ []) : skipQuoted text ≠ 0 := by
  unfold skipQuoted
  split
  · exact absurd rfl more
  all_goals simp

theorem agrees_quoted (closes : skipQuoted rest ≠ 0) :
    Agrees ('"' :: rest) (skipQuoted rest + 1) (.skipped .quoted) :=
  ⟨⟨_, by simp [tokenTurn, isSpaceOrNL, closes]; rfl⟩, fun _ => scanBareEnd_other (by decide)⟩

theorem agrees_comment {length : ℕ}
    (ends : (matchBracketOpen rest = none ∧ length = lineLength rest) ∨
      ∃ opener eq closer, matchBracketOpen rest = some (opener, eq) ∧
        findBracketClose eq (rest.drop opener) = some closer ∧ length = opener + closer) :
    Agrees ('#' :: rest) (length + 1) (.skipped .comment) := by
  refine ⟨⟨none, ?_⟩, fun _ => scanBareEnd_other (by decide)⟩
  rcases ends with ⟨line, rfl⟩ | ⟨opener, eq, closer, opened, closed, rfl⟩
  · simp [tokenTurn, isSpaceOrNL, line]
  · simp [tokenTurn, isSpaceOrNL, opened, closed]

theorem agrees_bracket {opener eq closer : ℕ}
    (opened : matchBracketOpen ('[' :: rest) = some (opener, eq))
    (closed : findBracketClose eq (('[' :: rest).drop opener) = some closer) :
    Agrees ('[' :: rest) (opener + closer) (.skipped .bracket) :=
  ⟨⟨_, by simp [tokenTurn, isSpaceOrNL, opened, closed]; rfl⟩, fun other => absurd rfl other⟩

theorem agrees_bareBracket (opened : matchBracketOpen ('[' :: rest) = none) :
    Agrees ('[' :: rest) 1 .bare := by
  refine ⟨by simp [tokenTurn, isSpaceOrNL, opened], ?_⟩
  rw [scanBareEnd_other (by decide), drop_succ_cons, drop_zero]
  simp [isSpaceOrNL]
  omega

theorem agrees_byte (slash : c ≠ '\\') (quote : c ≠ '"') (comment : c ≠ '#') (bracket : c ≠ '[') :
    Agrees (c :: rest) 1 (if c = '(' then .opens else if c = ')' then .closes
      else if isSpaceOrNL c then .blank else .bare) := by
  split_ifs with opens closes space
  · refine ⟨rfl, ⟨_, by simp [tokenTurn, opens, isSpaceOrNL]; rfl⟩, ?_⟩
    rw [scanBareEnd_other slash]
    simp [opens]
  · refine ⟨rfl, ⟨_, by simp [tokenTurn, closes, isSpaceOrNL]; rfl⟩, ?_⟩
    rw [scanBareEnd_other slash]
    simp [closes]
  · refine ⟨rfl, ⟨none, by simp [tokenTurn, space]⟩, ?_⟩
    rw [scanBareEnd_other slash]
    simp [space]
  · refine ⟨by simp [tokenTurn, quote, comment, bracket, opens, closes, space], ?_⟩
    rw [scanBareEnd_other slash, drop_succ_cons, drop_zero]
    simp [quote, comment, opens, closes, space]
    omega

theorem turns_agree (turn : argTurn (c :: rest ++ ')' :: tail) = some (n, mark))
    (inside : n ≤ (c :: rest).length) :
    argTurn (c :: rest) = some (n, mark) ∧ Agrees (c :: rest) n mark := by
  have behind : rest ++ ')' :: tail ≠ [] := by simp
  rw [cons_append, argTurn] at turn
  rw [argTurn]
  by_cases slash : c = '\\'
  · subst slash
    rw [if_pos ⟨rfl, behind⟩] at turn
    cases turn
    have more : rest ≠ [] := by
      rintro rfl
      simp [escapeLength] at inside
    rw [escapeLength_before more]
    exact ⟨if_pos ⟨rfl, more⟩, agrees_escape more⟩
  rw [if_neg (fun both => slash both.1)] at turn ⊢
  by_cases quote : c = '"'
  · subst quote
    cases turn
    have same := skipQuoted_before (Nat.le_of_succ_le_succ inside)
    have closes : skipQuoted rest ≠ 0 := same ▸ skipQuoted_pos behind
    rw [← same]
    exact ⟨rfl, agrees_quoted closes⟩
  rw [if_neg quote] at turn ⊢
  by_cases comment : c = '#'
  · subst comment
    rw [if_pos rfl, matchBracketOpen_before] at turn
    cases opened : matchBracketOpen rest with
    | none =>
      simp only [opened] at turn ⊢
      cases turn
      have same := lineLength_before (Nat.le_of_succ_le_succ inside)
      rw [← same]
      exact ⟨rfl, agrees_comment (.inl ⟨opened, rfl⟩)⟩
    | some bracket =>
      obtain ⟨opener, eq⟩ := bracket
      simp only [opened] at turn ⊢
      cases closed : findBracketClose eq ((rest ++ ')' :: tail).drop opener) with
      | none =>
        simp only [closed] at turn
        cases turn
        simp only [length_append, length_cons] at inside
        omega
      | some closer =>
        simp only [closed] at turn
        cases turn
        have here := bracket_before opened closed (Nat.le_of_succ_le_succ inside)
        rw [here]
        exact ⟨rfl, agrees_comment (.inr ⟨opener, eq, closer, opened, here, rfl⟩)⟩
  rw [if_neg comment] at turn ⊢
  by_cases bracket : c = '['
  · subst bracket
    have before : matchBracketOpen ('[' :: (rest ++ ')' :: tail)) = matchBracketOpen ('[' :: rest) :=
      @matchBracketOpen_before ('[' :: rest) tail
    rw [if_pos rfl, before] at turn
    cases opened : matchBracketOpen ('[' :: rest) with
    | none =>
      simp only [opened] at turn ⊢
      cases turn
      exact ⟨rfl, agrees_bareBracket opened⟩
    | some bracket =>
      obtain ⟨opener, eq⟩ := bracket
      simp only [opened] at turn ⊢
      obtain ⟨closer, closed, same⟩ := Option.map_eq_some_iff.mp turn
      cases same
      have here := bracket_before opened closed inside
      rw [here]
      exact ⟨rfl, agrees_bracket opened here⟩
  rw [if_neg bracket] at turn ⊢
  refine ⟨turn, ?_⟩
  have agrees := @agrees_byte c rest slash quote comment bracket
  split_ifs at turn agrees <;> cases turn <;> exact agrees

end Same

section Regions

variable {tail : Text} {depth pos : ℕ} {regions : List Region}

theorem first_turn {c : Char} {rest : Text}
    (closed : scanArgs (c :: rest ++ ')' :: tail) 0 depth pos =
      some (pos + (c :: rest).length, regions)) :
    ∃ n mark, argTurn (c :: rest ++ ')' :: tail) = some (n, mark) ∧ 1 ≤ n ∧
      n ≤ (c :: rest).length ∧ argTurn (c :: rest) = some (n, mark) ∧ Agrees (c :: rest) n mark := by
  cases turn : argTurn (c :: rest ++ ')' :: tail) with
  | none =>
    rw [cons_append] at turn closed
    rw [scanArgs, turn] at closed
    cases closed
  | some found =>
    obtain ⟨n, mark⟩ := found
    have inside : n ≤ (c :: rest).length := by
      have plain (isPlain : mark = .bare ∨ mark = .blank) : n ≤ (c :: rest).length := by
        rw [scanArgs_plain turn isPlain] at closed
        have bound := scanArgs_ge closed
        omega
      cases mark with
      | bare => exact plain (.inl rfl)
      | blank => exact plain (.inr rfl)
      | opens => simp [(argTurn_turned turn).single (.inl rfl)]
      | closes => simp [(argTurn_turned turn).single (.inr rfl)]
      | skipped kind =>
        rw [scanArgs_skipped turn] at closed
        obtain ⟨⟨stop, later⟩, found, same⟩ := Option.map_eq_some_iff.mp closed
        have reached : stop = pos + (c :: rest).length := congrArg Prod.fst same
        have bound := scanArgs_ge found
        omega
    obtain ⟨here, agrees⟩ := turns_agree turn inside
    exact ⟨n, mark, rfl, (argTurn_turned turn).pos, inside, here, agrees⟩

theorem bareword_ended {a : Text} (stop : scanBareEnd a = 0) (bare : Bool) :
    bracketInBareword a 0 bare = bracketInBareword a 0 false := by
  cases a with
  | nil => rfl
  | cons c rest =>
    cases turn : argTurn (c :: rest) with
    | none => rw [bracketInBareword, bracketInBareword, turn]
    | some found =>
      have other : found.2 ≠ .skipped .bracket := by
        intro bracket
        obtain rfl : c = '[' := Option.some.inj ((argTurn_turned turn).bracket bracket)
        rw [scanBareEnd_other (by decide)] at stop
        simp [isSpaceOrNL] at stop
      rw [bracketInBareword_turn turn, bracketInBareword_turn turn]
      simp [other]

theorem scanArgs_bareword (a : Text)
    (closed : scanArgs (a ++ ')' :: tail) 0 depth pos = some (pos + a.length, regions)) :
    (bracketInBareword a 0 true = true ∧ ∃ region ∈ regions, region.start < pos + scanBareEnd a) ∨
    (scanArgs (a.drop (scanBareEnd a) ++ ')' :: tail) 0 depth (pos + scanBareEnd a) =
        some (pos + a.length, regions) ∧
      bracketInBareword a 0 true = bracketInBareword (a.drop (scanBareEnd a)) 0 false ∧
      scanBareEnd a ≤ a.length) := by
  induction size : a.length using Nat.strongRecOn generalizing a pos with
  | ind size ih =>
    cases a with
    | nil => exact .inr ⟨size ▸ closed, rfl, Nat.zero_le _⟩
    | cons c rest =>
      subst size
      obtain ⟨n, mark, turn, positive, inside, here, agrees⟩ := first_turn closed
      by_cases stop : scanBareEnd (c :: rest) = 0
      · rw [stop]
        exact .inr ⟨closed, bareword_ended stop true, Nat.zero_le _⟩
      cases mark with
      | skipped kind =>
        obtain rfl : kind = .bracket := by
          by_contra other
          exact stop (agrees.2 other)
        rw [scanArgs_skipped turn] at closed
        obtain ⟨found, -, same⟩ := Option.map_eq_some_iff.mp closed
        obtain rfl : _ :: found.2 = regions := congrArg Prod.snd same
        refine .inl ⟨by rw [bracketInBareword_turn here]; rfl, _, mem_cons_self, ?_⟩
        dsimp only
        omega
      | blank | opens | closes => exact absurd agrees.2.2 stop
      | bare =>
        obtain ⟨-, goes⟩ := agrees
        rw [scanArgs_plain turn (.inl rfl), drop_append_of_le_length inside] at closed
        have length : ((c :: rest).drop n).length = (c :: rest).length - n := length_drop
        have whole : pos + (c :: rest).length = pos + n + ((c :: rest).drop n).length := by omega
        have carried : bracketInBareword (c :: rest) 0 true =
            bracketInBareword ((c :: rest).drop n) 0 true := bracketInBareword_turn here true
        rw [whole] at closed ⊢
        rw [carried, goes, ← Nat.add_assoc]
        rcases ih ((c :: rest).drop n).length (by omega) ((c :: rest).drop n) closed rfl with
          skipped | ⟨first, second, third⟩
        · exact .inl skipped
        · rw [drop_drop] at first second
          exact .inr ⟨first, second, by omega⟩

theorem map_some_iff {x : Option (List Token × List Region)} {token : List Token}
    {skipped : List Region} :
    (∃ tokens, x.map (fun later => (token ++ later.1, skipped ++ later.2)) =
      some (tokens, skipped ++ regions)) ↔ ∃ tokens, x = some (tokens, regions) := by
  cases x with
  | none => simp
  | some later => simp [Prod.ext_iff]

/-- What the statement scanner has skipped, the token scanner takes as a whole, and nothing else,
exactly when no bracket opens inside a bareword. -/
theorem regions_agree_iff (a : Text)
    (closed : scanArgs (a ++ ')' :: tail) 0 depth pos = some (pos + a.length, regions)) :
    (∃ tokens, tokenizeFrom a 0 pos = some (tokens, regions)) ↔
      bracketInBareword a 0 false = false := by
  induction size : a.length using Nat.strongRecOn generalizing a pos depth regions with
  | ind size ih =>
    cases a with
    | nil =>
      have closes : argTurn (')' :: tail) = some (1, .closes) := by simp [argTurn]
      rw [nil_append, scanArgs, closes] at closed
      split_ifs at closed
      · cases closed
        exact iff_of_true ⟨[], rfl⟩ rfl
      · have bound := scanArgs_ge closed
        rw [length_nil] at bound
        omega
    | cons c rest =>
      obtain ⟨n, mark, turn, positive, inside, here, agrees⟩ := first_turn closed
      have length : ((c :: rest).drop n).length = (c :: rest).length - n := length_drop
      have whole : pos + (c :: rest).length = pos + n + ((c :: rest).drop n).length := by omega
      have carried := bracketInBareword_turn here false
      rw [Bool.false_and, Bool.false_or] at carried
      rw [carried]
      cases mark with
      | skipped kind =>
        obtain ⟨⟨token, taken⟩, -⟩ := agrees
        rw [scanArgs_skipped turn, drop_append_of_le_length inside, whole] at closed
        obtain ⟨⟨stop, regions'⟩, found, same⟩ := Option.map_eq_some_iff.mp closed
        cases same
        rw [tokenizeFrom_turn positive taken]
        exact map_some_iff.trans (ih _ (by omega) _ found rfl)
      | blank =>
        obtain ⟨rfl, ⟨token, taken⟩, -⟩ := agrees
        rw [scanArgs_plain turn (.inr rfl), drop_append_of_le_length inside, whole] at closed
        rw [tokenizeFrom_turn positive taken]
        exact map_some_iff.trans (ih _ (by omega) _ closed rfl)
      | opens =>
        obtain ⟨rfl, ⟨token, taken⟩, -⟩ := agrees
        rw [cons_append] at turn closed
        rw [scanArgs, turn, whole] at closed
        rw [tokenizeFrom_turn positive taken]
        exact map_some_iff.trans (ih _ (by omega) _ closed rfl)
      | closes =>
        obtain ⟨rfl, ⟨token, taken⟩, -⟩ := agrees
        rw [cons_append] at turn closed
        rw [scanArgs, turn, whole] at closed
        split_ifs at closed
        · have reached := congrArg Prod.fst (Option.some.inj closed)
          omega
        · rw [tokenizeFrom_turn positive taken]
          exact map_some_iff.trans (ih _ (by omega) _ closed rfl)
      | bare =>
        obtain ⟨taken, goes⟩ := agrees
        have first : 1 ≤ scanBareEnd (c :: rest) := by omega
        rw [scanArgs_plain turn (.inl rfl), drop_append_of_le_length inside, whole] at closed
        rw [tokenizeFrom_turn first taken]
        refine map_some_iff.trans ?_
        rcases scanArgs_bareword _ closed with ⟨held, region, listed, early⟩ | ⟨past, same, bound⟩
        · rw [Nat.add_assoc, ← goes] at early
          refine iff_of_false ?_ (by simp [held])
          rintro ⟨tokens, scanned⟩
          exact absurd (tokenizeFrom_start scanned region listed) (Nat.not_le.mpr early)
        · rw [drop_drop, Nat.add_assoc, ← goes] at past
          rw [drop_drop, ← goes] at same
          have left : ((c :: rest).drop (scanBareEnd (c :: rest))).length =
              (c :: rest).length - scanBareEnd (c :: rest) := length_drop
          have end_ : pos + n + ((c :: rest).drop n).length = pos + scanBareEnd (c :: rest) +
              ((c :: rest).drop (scanBareEnd (c :: rest))).length := by omega
          rw [end_] at past
          simp only [decide_true, same]
          exact ih _ (by omega) _ past rfl

end Regions

theorem split_scanned (text : Text) (skip : ℕ) : ∀ st ∈ (splitFrom text skip).statements,
    ∃ tail, scanArgs (st.args ++ ')' :: tail) 0 1 0 = some (0 + st.args.length, st.skipped) := by
  induction text generalizing skip with
  | nil => exact nofun
  | cons c rest ih =>
    cases skip with
    | succ skip => exact ih skip
    | zero =>
      rw [splitFrom]
      split_ifs
      · split
        · exact nofun
        · exact ih _
      · exact ih _
      · split
        · split
          · exact nofun
          · exact ih _
        · exact ih _
      · dsimp only
        split
        · split
          · exact nofun
          · rename_i found
            intro st listed
            rcases mem_cons.mp listed with rfl | listed
            · obtain ⟨before, tail, rfl, rfl⟩ := scanArgs_stop found
              refine ⟨tail, ?_⟩
              have cut : (before ++ ')' :: tail).take (0 + before.length) = before := by simp
              rw [cut]
              exact found
            · exact ih _ st listed
        · exact ih _
      · exact ih _

def tokenRegions (args : Text) : Option (List Region) := (tokenizeFrom args 0 0).map Prod.snd

/-- For every statement found in a text: the token scanner goes through its arguments and takes as a
whole what the statement scanner has skipped, exactly when no bracket opens inside a bareword. -/
theorem lexers_agree (src : Text) (st : Statement)
    (listed : st ∈ (splitStatementsChecked src).statements) :
    ((tokenize st.args).isSome = true ∧ tokenRegions st.args = some st.skipped) ↔
      bracketInBareword st.args 0 false = false := by
  obtain ⟨tail, closed⟩ := split_scanned src 0 st listed
  rw [← regions_agree_iff st.args closed]
  unfold tokenize tokenRegions
  cases tokenizeFrom st.args 0 0 with
  | none => simp
  | some found => simp [Prod.ext_iff]

theorem lexers_agree_mixed :
    (splitStatementsChecked "set(P \"a)\" [[b)]] # c)\n d[1])".toList).ok = true ∧
      (tokenize "P \"a)\" [[b)]] # c)\n d[1]".toList).isSome = true ∧
      tokenRegions "P \"a)\" [[b)]] # c)\n d[1]".toList =
        some [⟨.quoted, 2, 6⟩, ⟨.bracket, 7, 13⟩, ⟨.comment, 14, 19⟩] :=
  ⟨by decide +kernel, (lexers_agree "set(P \"a)\" [[b)]] # c)\n d[1])".toList
      ⟨"set".toList, "P \"a)\" [[b)]] # c)\n d[1]".toList,
        [⟨.quoted, 2, 6⟩, ⟨.bracket, 7, 13⟩, ⟨.comment, 14, 19⟩]⟩
      (by decide +kernel)).mpr (by decide +kernel)⟩

/-- A bracket that opens inside a bareword, with a quote in it: the last quote of the arguments
starts a string with nothing behind it. -/
theorem bareword_bracket_out_of_range :
    (splitStatementsChecked "set(P a[[\"]]\"\")".toList).ok = true ∧
      ∃ st ∈ (splitStatementsChecked "set(P a[[\"]]\"\")".toList).statements,
        st.skipped = [⟨.bracket, 3, 8⟩, ⟨.quoted, 8, 10⟩] ∧ tokenize st.args = none :=
  ⟨by decide +kernel, _, mem_cons_self, by decide +kernel, by decide +kernel⟩

end McpLocalHub.PatchesApply.LexerAgreement
