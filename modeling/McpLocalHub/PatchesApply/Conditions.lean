/- Module: PatchesApply/Conditions
   source: internal/vcpkgmcp/patchesapply/condition.go,
   internal/vcpkgmcp/patchesapply/tribool.go, internal/vcpkgmcp/patchesapply/varenv.go
   digest: The evaluation of an if() condition: operands, comparisons and the parser over the
   tokens. -/

import McpLocalHub.PatchesApply.Assignments

set_option autoImplicit false

namespace McpLocalHub.PatchesApply.Conditions

open CMakeGraph.Lexer (Text isIdentStart isIdentCont)
open Foundation.Kleene Foundation.Maps Lexer Values Assignments List

/-- The functions of the standard library that conditions call, with the equality of parsed numbers.
-/
structure Library where
  toUpper : Text → Text
  trimSpace : Text → Text
  Number : Type
  zero : Number
  equal : Number → Number → Bool
  parseFloat : Text → Option Number

def lookup (env : VarEnv) (name : Text) : Option Text :=
  if name = "PORT".toList then some env.portName
  else if name = "CURRENT_PORT_DIR".toList then some env.portDir
  else (env.values.lookup name).map (fun value => value.text)

def taintOf (env : VarEnv) (name : Text) : ProvenanceMeta :=
  match env.values.lookup name with
  | none => certainProvenance
  | some value => value.spans.foldl (fun m span => combineProvenance m span.prov) certainProvenance

def lookupCertain (env : VarEnv) (name : Text) : Option Text :=
  if (taintOf env name).guard ≠ .isTrue then none else lookup env name

def referenceAt (opener text : Text) : Option Text :=
  if opener.isPrefixOf text then
    let name := (text.drop opener.length).takeWhile isIdentCont
    if plainIdent name ∧ (text.drop (opener.length + name.length)).head? = some '\x7d' then some name
    else none
  else none

structure Gathered where
  unresolved : List Text := []
  uncertainVars : List Text := []
  certainty : Tri := .isTrue
  changed : Bool := false

def replaceAll (opener : Text) (replace : Text → Gathered → Text × Gathered) :
    Text → (skip : ℕ) → Gathered → Text × Gathered
  | [], _, g => ([], g)
  | _ :: rest, skip + 1, g => replaceAll opener replace rest skip g
  | c :: rest, 0, g =>
    match referenceAt opener (c :: rest) with
    | some name =>
      let replaced := replace name g
      let later := replaceAll opener replace rest (opener.length + name.length) replaced.2
      (replaced.1 ++ later.1, later.2)
    | none =>
      let later := replaceAll opener replace rest 0 g
      (c :: later.1, later.2)

def replaceEnv (env : VarEnv) (name : Text) (g : Gathered) : Text × Gathered :=
  let written := "$ENV\x7b".toList ++ name ++ ['\x7d']
  if name = "VCPKG_ROOT".toList ∧ env.vcpkgRoot ≠ [] then (env.vcpkgRoot, { g with changed := true })
  else (written, { g with unresolved := g.unresolved ++ [written] })

def replaceVar (env : VarEnv) (name : Text) (g : Gathered) : Text × Gathered :=
  match lookup env name with
  | none => ("$\x7b".toList ++ name ++ ['\x7d'], { g with unresolved := g.unresolved ++ [name] })
  | some value =>
    let taint := taintOf env name
    let g := if taint.guard ≠ .isTrue then
        { g with
          certainty := kleeneAnd g.certainty taint.guard
          uncertainVars := g.uncertainVars ++ [name] ++ taint.unresolvedVars }
      else g
    (value, { g with changed := true })

def expandPass (env : VarEnv) (s : Text) (g : Gathered) : Text × Gathered :=
  let inner := replaceAll "$ENV\x7b".toList (replaceEnv env) s 0 { g with changed := false }
  replaceAll "$\x7b".toList (replaceVar env) inner.1 0 inner.2

def expandPasses (env : VarEnv) : (passes : ℕ) → Text → Gathered → Text × Gathered
  | 0, s, g => (s, g)
  | passes + 1, s, g =>
    let pass := expandPass env s g
    if pass.2.changed then expandPasses env passes pass.1 pass.2 else pass

structure Expansion where
  text : Text
  unresolved : List Text := []
  certainty : Tri := .isTrue
  uncertainVars : List Text := []

def expand (env : VarEnv) (s : Text) : Expansion :=
  let done := expandPasses env 8 s {}
  { text := done.1
    unresolved := dedupStrings done.2.unresolved
    certainty := done.2.certainty
    uncertainVars := dedupStrings done.2.uncertainVars }

def expandToken (env : VarEnv) (t : Token) : Expansion :=
  if t.raw then { text := t.text } else expand env t.text

def operandFromExpansion (ex : Expansion) : Option Text × List Text :=
  if ex.certainty ≠ .isTrue ∨ ex.unresolved ≠ [] then
    (none, dedupStrings (ex.unresolved ++ ex.uncertainVars))
  else (some ex.text, ex.unresolved)

def varRefFull (text : Text) : Option Text :=
  match referenceAt "$\x7b".toList text with
  | some name => if text.length = name.length + 3 then some name else none
  | none => none

def cmakeConstants : List Text :=
  ["TRUE", "FALSE", "ON", "OFF", "YES", "NO", "Y", "N", "IGNORE"].map String.toList

def cmakeFalseConstants : List Text :=
  ["", "0", "OFF", "FALSE", "N", "NO", "IGNORE", "NOTFOUND"].map String.toList

def notFoundSuffix (text : Text) : Bool := "-NOTFOUND".toList.isSuffixOf text

structure Operand where
  value : Option Text
  unresolved : List Text := []
  variableDerived : Bool := false

section Resolve

variable (lib : Library)

def isConstant (text : Text) : Bool :=
  cmakeConstants.contains (lib.toUpper text) || notFoundSuffix (lib.toUpper text)

def resolveUnquoted (env : VarEnv) (t : Token) : Operand :=
  if isConstant lib t.text then { value := some t.text }
  else if plainIdent t.text then
    match lookupCertain env t.text with
    | none => { value := none, unresolved := [t.text] }
    | some value => { value := some value, variableDerived := true }
  else
    let operand := operandFromExpansion (expandToken env t)
    { value := operand.1, unresolved := operand.2 }

def resolveExpandedUnquoted (env : VarEnv) (value : Text) : Operand :=
  resolveUnquoted lib env { text := value, listText := [] }

def resolveOperand (env : VarEnv) (t : Token) : Operand :=
  if t.quoted then
    let operand := operandFromExpansion (expandToken env t)
    { value := operand.1, unresolved := operand.2 }
  else
    match varRefFull t.text with
    | some name =>
      match lookupCertain env name with
      | none => { value := none, unresolved := [name] }
      | some value => resolveExpandedUnquoted lib env value
    | none => resolveUnquoted lib env t

/-- A name right of a comparison without a certain value is taken as it is. -/
def resolveUnquotedRHS (env : VarEnv) (t : Token) : Option Text × List Text :=
  if isConstant lib t.text then (some t.text, [])
  else if plainIdent t.text then
    match lookupCertain env t.text with
    | some value => (some value, [])
    | none => (some t.text, [])
  else operandFromExpansion (expandToken env t)

def resolveExpandedComparisonOperand (env : VarEnv) (value : Text) : Option Text × List Text :=
  resolveUnquotedRHS lib env { text := value, listText := [] }

def resolveComparisonRHS (env : VarEnv) (t : Token) : Option Text × List Text :=
  if t.quoted then operandFromExpansion (expandToken env t)
  else
    match varRefFull t.text with
    | some name =>
      match lookupCertain env name with
      | none => (none, [name])
      | some value => resolveExpandedComparisonOperand lib env value
    | none => resolveUnquotedRHS lib env t

def truthy : Option Text → Tri
  | none => .unknown
  | some value =>
    let v := lib.toUpper value
    if cmakeFalseConstants.contains v then .isFalse
    else if (lib.parseFloat v).any (fun number => lib.equal number lib.zero) then .isFalse
    else if notFoundSuffix v then .isFalse
    else .isTrue

def truthyConstant : Option Text → Tri
  | none => .unknown
  | some value =>
    let v := lib.toUpper (lib.trimSpace value)
    if cmakeFalseConstants.contains v ∨ notFoundSuffix v then .isFalse
    else
      match lib.parseFloat v with
      | some number => if lib.equal number lib.zero then .isFalse else .isTrue
      | none => if cmakeConstants.contains v then .isTrue else .isFalse

end Resolve

inductive ComparisonOp
  | strEqual | equal | versionEqual | versionGreater | versionGreaterEqual | versionLess
  | versionLessEqual

def comparisonOp (t : Token) : Option ComparisonOp :=
  if isWord "STREQUAL" t then some .strEqual
  else if isWord "EQUAL" t then some .equal
  else if isWord "VERSION_EQUAL" t then some .versionEqual
  else if isWord "VERSION_GREATER" t then some .versionGreater
  else if isWord "VERSION_GREATER_EQUAL" t then some .versionGreaterEqual
  else if isWord "VERSION_LESS" t then some .versionLess
  else if isWord "VERSION_LESS_EQUAL" t then some .versionLessEqual
  else none

def isVersionDigit (c : Char) : Bool := decide ('0' ≤ c ∧ c ≤ '9')

def startsWithDigit (text : Text) : Bool := text.head?.any isVersionDigit

/-- The digits of the component that the text begins with, without leading zeros, and the text behind
the component and its dot. -/
def versionComponent (text : Text) : Text × Text :=
  let digits := text.dropWhile (· = '0')
  let behind := digits.dropWhile isVersionDigit
  (digits.takeWhile isVersionDigit, if behind.head? = some '.' then behind.tail else behind)

def versionLoop : (fuel : ℕ) → Text → Text → Ordering
  | 0, _, _ => .eq
  | fuel + 1, a, b =>
    if startsWithDigit a || startsWithDigit b then
      let left := versionComponent a
      let right := versionComponent b
      match compare left.1.length right.1.length with
      | .eq =>
        match left.1.compareLex (fun c d => compare c.toNat d.toNat) right.1 with
        | .eq => versionLoop fuel left.2 right.2
        | order => order
      | order => order
    else .eq

theorem dropWhile_length (p : Char → Bool)
    (text : Text) : (text.dropWhile p).length ≤ text.length :=
  (dropWhile_suffix p).length_le

theorem versionComponent_length (text : Text) :
    (versionComponent text).2.length + (if startsWithDigit text then 1 else 0) ≤ text.length := by
  have zeros : (text.dropWhile (· = '0')).length ≤ text.length := dropWhile_length _ _
  have digits := dropWhile_length isVersionDigit (text.dropWhile (· = '0'))
  have dotted : (versionComponent text).2.length ≤
      ((text.dropWhile (· = '0')).dropWhile isVersionDigit).length := by
    unfold versionComponent
    dsimp only
    split_ifs
    · rw [length_tail]
      omega
    · exact Nat.le_refl _
  split_ifs with starts
  · cases text with
    | nil => cases starts
    | cons c rest =>
      have digit : isVersionDigit c = true := starts
      have fewer : (((c :: rest).dropWhile (· = '0')).dropWhile isVersionDigit).length ≤
          rest.length := by
        by_cases zero : c = '0'
        · rw [dropWhile_cons_of_pos (by simpa using zero)]
          exact Nat.le_trans (dropWhile_length _ _) (dropWhile_length _ _)
        · rw [dropWhile_cons_of_neg (by simpa using zero), dropWhile_cons_of_pos digit]
          exact dropWhile_length _ _
      rw [length_cons]
      omega
  · omega

theorem versionLoop_enough {fuel other : ℕ} {a b : Text} (enough : a.length + b.length < fuel)
    (enough' : a.length + b.length < other) : versionLoop fuel a b = versionLoop other a b := by
  induction fuel generalizing other a b with
  | zero => exact absurd enough (Nat.not_lt_zero _)
  | succ fuel ih =>
    obtain ⟨other, rfl⟩ : ∃ n, other = n + 1 := ⟨other - 1, by omega⟩
    rw [versionLoop, versionLoop]
    split_ifs with more
    · have left := versionComponent_length a
      have right := versionComponent_length b
      have fewer : (versionComponent a).2.length + (versionComponent b).2.length <
          a.length + b.length := by
        rcases Bool.or_eq_true_iff.mp more with starts | starts
        · rw [if_pos starts] at left
          omega
        · rw [if_pos starts] at right
          omega
      dsimp only
      rw [ih (by omega) (show _ < other by omega)]
    · rfl

def compareVersions (a b : Text) : Ordering := versionLoop (a.length + b.length + 1) a b

def evalComparison (lib : Library) (op : ComparisonOp) : Option Text → Option Text → Tri
  | some lhs, some rhs =>
    match op with
    | .strEqual => .ofBool (lhs = rhs)
    | .equal =>
      match lib.parseFloat (lib.trimSpace lhs), lib.parseFloat (lib.trimSpace rhs) with
      | some left, some right => .ofBool (lib.equal left right)
      | _, _ => .unknown
    | .versionEqual => .ofBool (compareVersions lhs rhs = .eq)
    | .versionGreater => .ofBool (compareVersions lhs rhs = .gt)
    | .versionGreaterEqual => .ofBool (compareVersions lhs rhs ≠ .lt)
    | .versionLess => .ofBool (compareVersions lhs rhs = .lt)
    | .versionLessEqual => .ofBool (compareVersions lhs rhs ≠ .gt)
  | _, _ => .unknown

/-- How a parser resolves the operands of an atom: alone or left of a comparison, and right of one. -/
structure Resolver where
  left : Token → Operand
  right : Token → Option Text × List Text

structure ParseState where
  rest : List Token
  unresolved : List Text := []
  errored : Bool := false

def ParseState.fail (st : ParseState) : ParseState := { st with errored := true }

section Parse

variable (lib : Library) (resolver : Resolver)

def comparisonAtom (op : ComparisonOp) (lhs rhs : Token) (st : ParseState) : Tri × ParseState :=
  let left := resolver.left lhs
  let right := resolver.right rhs
  (evalComparison lib op left.value right.1,
    { st with unresolved := st.unresolved ++ left.unresolved ++ right.2 })

def operandAtom (t : Token) (st : ParseState) : Tri × ParseState :=
  let operand := resolver.left t
  (if operand.variableDerived then truthy lib operand.value else truthyConstant lib operand.value,
    { st with unresolved := st.unresolved ++ operand.unresolved })

mutual

def parseLogical : ℕ → ParseState → Tri × ParseState
  | 0, st => (.unknown, st.fail)
  | fuel + 1, st =>
    let first := parseUnary fuel st
    logicalTail fuel first.1 first.2

def logicalTail : ℕ → Tri → ParseState → Tri × ParseState
  | 0, _, st => (.unknown, st.fail)
  | fuel + 1, v, st =>
    match st.rest with
    | [] => (v, st)
    | t :: rest =>
      if isWord "AND" t then
        let rhs := parseUnary fuel { st with rest := rest }
        logicalTail fuel (kleeneAnd v rhs.1) rhs.2
      else if isWord "OR" t then
        let rhs := parseUnary fuel { st with rest := rest }
        logicalTail fuel (kleeneOr v rhs.1) rhs.2
      else (v, st)

def parseUnary : ℕ → ParseState → Tri × ParseState
  | 0, st => (.unknown, st.fail)
  | fuel + 1, st =>
    match st.rest with
    | [] => parseAtom fuel st
    | t :: rest =>
      if isWord "NOT" t then
        let inner := parseUnary fuel { st with rest := rest }
        (kleeneNot inner.1, inner.2)
      else parseAtom fuel st

def parseAtom : ℕ → ParseState → Tri × ParseState
  | 0, st => (.unknown, st.fail)
  | fuel + 1, st =>
    match st.rest with
    | [] => (.unknown, st.fail)
    | t :: rest =>
      if isWord "(" t then
        let inner := parseLogical fuel { st with rest := rest }
        match inner.2.rest with
        | [] => (.unknown, inner.2.fail)
        | close :: behind =>
          if isWord ")" close then (inner.1, { inner.2 with rest := behind })
          else (.unknown, inner.2.fail)
      else
        match rest with
        | [] => operandAtom lib resolver t { st with rest := [] }
        | next :: behind =>
          match comparisonOp next with
          | some op =>
            match behind with
            | [] => (.unknown, { st with rest := [], errored := true })
            | rhs :: behind =>
              comparisonAtom lib resolver op t rhs { st with rest := behind }
          | none => operandAtom lib resolver t { st with rest := next :: behind }

end

def parseFuel (toks : List Token) : ℕ := 4 * toks.length + 4

def evalTokens (toks : List Token) : Tri × List Text :=
  let done := parseLogical lib resolver (parseFuel toks) { rest := toks }
  (if done.2.errored ∨ done.2.rest ≠ [] then .unknown else done.1, dedupStrings done.2.unresolved)

/-! The tokens that are left are the last ones of those before, and a parser that has enough fuel does not
use it up. -/

theorem parse_suffix (fuel : ℕ) : (∀ st, (parseLogical lib resolver fuel st).2.rest <:+ st.rest) ∧
      (∀ v st, (logicalTail lib resolver fuel v st).2.rest <:+ st.rest) ∧
      (∀ st, (parseUnary lib resolver fuel st).2.rest <:+ st.rest) ∧
      (∀ st, (parseAtom lib resolver fuel st).2.rest <:+ st.rest) := by
  induction fuel with
  | zero =>
    exact ⟨fun st => suffix_rfl, fun _ st => suffix_rfl, fun st => suffix_rfl,
      fun st => suffix_rfl⟩
  | succ fuel ih =>
    obtain ⟨logical, tail, unary, atom⟩ := ih
    refine ⟨fun st => ?_, ?_, ?_, ?_⟩
    · exact (tail _ _).trans (unary st)
    · rintro v ⟨tokens, names, bad⟩
      rw [logicalTail]
      cases tokens with
      | nil => exact suffix_rfl
      | cons t rest =>
        have behind (v : Tri) : (logicalTail lib resolver fuel v
            (parseUnary lib resolver fuel ⟨rest, names, bad⟩).2).2.rest <:+ t :: rest :=
          ((tail v _).trans (unary ⟨rest, names, bad⟩)).trans (suffix_cons t rest)
        dsimp only
        split_ifs
        · exact behind _
        · exact behind _
        · exact suffix_rfl
    · rintro ⟨tokens, names, bad⟩
      rw [parseUnary]
      cases tokens with
      | nil => exact atom ⟨[], names, bad⟩
      | cons t rest =>
        dsimp only
        split_ifs
        · exact (unary ⟨rest, names, bad⟩).trans (suffix_cons t rest)
        · exact atom ⟨t :: rest, names, bad⟩
    · rintro ⟨tokens, names, bad⟩
      rw [parseAtom]
      cases tokens with
      | nil => exact suffix_rfl
      | cons t rest =>
        dsimp only
        split_ifs with opens
        · have inner := logical ⟨rest, names, bad⟩
          generalize parseLogical lib resolver fuel ⟨rest, names, bad⟩ = done at inner
          obtain ⟨v, left, names', bad'⟩ := done
          have before : left <:+ t :: rest := List.IsSuffix.trans inner (suffix_cons t rest)
          cases left with
          | nil => exact nil_suffix
          | cons close behind =>
            dsimp only
            split_ifs
            · exact (suffix_cons close behind).trans before
            · exact before
        · cases rest with
          | nil => exact nil_suffix
          | cons next behind =>
            dsimp only
            cases comparisonOp next with
            | none => exact suffix_cons t _
            | some op =>
              cases behind with
              | nil => exact nil_suffix
              | cons rhs behind =>
                exact ((suffix_cons rhs behind).trans (suffix_cons next _)).trans
                  (suffix_cons t _)

theorem parse_enough (fuel : ℕ) :
    (∀ other st, 4 * st.rest.length + 3 ≤ fuel → 4 * st.rest.length + 3 ≤ other →
      parseLogical lib resolver fuel st = parseLogical lib resolver other st) ∧
    (∀ other v st, 4 * st.rest.length + 1 ≤ fuel → 4 * st.rest.length + 1 ≤ other →
      logicalTail lib resolver fuel v st = logicalTail lib resolver other v st) ∧
    (∀ other st, 4 * st.rest.length + 2 ≤ fuel → 4 * st.rest.length + 2 ≤ other →
      parseUnary lib resolver fuel st = parseUnary lib resolver other st) ∧
    (∀ other st, 4 * st.rest.length + 1 ≤ fuel → 4 * st.rest.length + 1 ≤ other →
      parseAtom lib resolver fuel st = parseAtom lib resolver other st) := by
  induction fuel with
  | zero => exact ⟨by omega, by omega, by omega, by omega⟩
  | succ fuel ih =>
    obtain ⟨logical, tail, unary, atom⟩ := ih
    refine ⟨?_, ?_, ?_, ?_⟩
    · intro other st enough enough'
      obtain ⟨other, rfl⟩ : ∃ n, other = n + 1 := ⟨other - 1, by omega⟩
      have shorter := ((parse_suffix lib resolver other).2.2.1 st).length_le
      rw [parseLogical, parseLogical, unary other st (by omega) (by omega)]
      exact tail other _ _ (by omega) (by omega)
    · rintro other v ⟨tokens, names, bad⟩ enough enough'
      obtain ⟨other, rfl⟩ : ∃ n, other = n + 1 := ⟨other - 1, by omega⟩
      rw [logicalTail, logicalTail]
      cases tokens with
      | nil => rfl
      | cons t rest =>
        rw [length_cons] at enough enough'
        have shorter := ((parse_suffix lib resolver other).2.2.1 ⟨rest, names, bad⟩).length_le
        dsimp only at shorter ⊢
        rw [unary other ⟨rest, names, bad⟩ (by dsimp only; omega) (by dsimp only; omega)]
        rw [tail other _ _ (by omega) (by omega), tail other _ _ (by omega) (by omega)]
    · rintro other ⟨tokens, names, bad⟩ enough enough'
      obtain ⟨other, rfl⟩ : ∃ n, other = n + 1 := ⟨other - 1, by omega⟩
      rw [parseUnary, parseUnary, atom other _ (by omega) (by omega)]
      cases tokens with
      | nil => rfl
      | cons t rest =>
        rw [length_cons] at enough enough'
        dsimp only
        rw [unary other ⟨rest, names, bad⟩ (by dsimp only; omega) (by dsimp only; omega)]
    · rintro other ⟨tokens, names, bad⟩ enough enough'
      obtain ⟨other, rfl⟩ : ∃ n, other = n + 1 := ⟨other - 1, by omega⟩
      rw [parseAtom, parseAtom]
      cases tokens with
      | nil => rfl
      | cons t rest =>
        rw [length_cons] at enough enough'
        dsimp only
        rw [logical other ⟨rest, names, bad⟩ (by dsimp only; omega) (by dsimp only; omega)]

/-- More fuel than a condition has makes no difference. -/
theorem parseLogical_enough (toks : List Token) {fuel : ℕ} (enough : parseFuel toks ≤ fuel) :
    parseLogical lib resolver fuel { rest := toks } =
      parseLogical lib resolver (parseFuel toks) { rest := toks } := by
  unfold parseFuel at enough ⊢
  exact (parse_enough lib resolver fuel).1 _ _ (by dsimp only; omega) (by dsimp only; omega)

end Parse

def envResolver (lib : Library) (env : VarEnv) : Resolver where
  left := resolveOperand lib env
  right := resolveComparisonRHS lib env

/-- `evalCondition`; `none` is a text that the lexer cannot cut into tokens. -/
def evalCondition (lib : Library) (raw : Text) (env : VarEnv) : Option (Tri × List Text) :=
  (tokenize raw).map (evalTokens lib (envResolver lib env))

end McpLocalHub.PatchesApply.Conditions
