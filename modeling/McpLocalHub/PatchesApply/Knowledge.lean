/- Module: PatchesApply/Knowledge
   source: internal/vcpkgmcp/patchesapply/condition.go, internal/vcpkgmcp/patchesapply/varenv.go
   digest: A condition that is decided stays decided when more variables have a certain value. -/

import McpLocalHub.PatchesApply.Conditions

set_option autoImplicit false

namespace McpLocalHub.PatchesApply.Knowledge

open CMakeGraph.Lexer (Text)
open Foundation.Kleene Foundation.Maps Lexer Values Assignments Conditions

def rightTokens : List Token → List Token
  | op :: rhs :: rest =>
    if (comparisonOp op).isSome then rhs :: rightTokens (rhs :: rest) else rightTokens (rhs :: rest)
  | _ => []

theorem rightTokens_cons {toks : List Token} (t : Token) {u : Token}
    (listed : u ∈ rightTokens toks) :
    u ∈ rightTokens (t :: toks) := by
  cases toks with
  | nil => cases listed
  | cons first rest =>
    rw [rightTokens]
    split_ifs
    · exact .tail first listed
    · exact listed

theorem rightTokens_suffix {before after : List Token} (suffix : after <:+ before) {u : Token}
    (listed : u ∈ rightTokens after) : u ∈ rightTokens before := by
  obtain ⟨taken, rfl⟩ := suffix
  induction taken with
  | nil => exact listed
  | cons t taken ih => exact rightTokens_cons t ih

structure Refines (r r' : Resolver) (toks : List Token) : Prop where
  left : ∀ t ∈ toks, ∀ v, (r.left t).value = some v →
    (r'.left t).value = some v ∧ (r'.left t).variableDerived = (r.left t).variableDerived
  right : ∀ t ∈ rightTokens toks, ∀ v, (r.right t).1 = some v → (r'.right t).1 = some v

theorem Refines.suffix {r r' : Resolver} {before after : List Token} (refines : Refines r r' before)
    (suffix : after <:+ before) : Refines r r' after :=
  ⟨fun t listed => refines.left t (suffix.subset listed),
    fun t listed => refines.right t (rightTokens_suffix suffix listed)⟩

structure Alike (st st' : ParseState) : Prop where
  rest : st'.rest = st.rest
  errored : st'.errored = st.errored

structure Improves (done done' : Tri × ParseState) : Prop where
  below : Below done.1 done'.1
  alike : Alike done.2 done'.2

section Parse

variable {lib : Library} {r r' : Resolver}

theorem evalComparison_below (op : ComparisonOp) {lhs rhs lhs' rhs' : Option Text}
    (left : ∀ v, lhs = some v → lhs' = some v) (right : ∀ v, rhs = some v → rhs' = some v) :
    Below (evalComparison lib op lhs rhs) (evalComparison lib op lhs' rhs') := by
  cases lhs with
  | none => exact .unknown _
  | some a =>
    cases rhs with
    | none => exact .unknown _
    | some b =>
      rw [left a rfl, right b rfl]
      exact .refl _

theorem comparisonAtom_improves (op : ComparisonOp) {lhs rhs : Token}
    (left : ∀ v, (r.left lhs).value = some v → (r'.left lhs).value = some v)
    (right : ∀ v, (r.right rhs).1 = some v → (r'.right rhs).1 = some v) {st st' : ParseState}
    (alike : Alike st st') :
    Improves (comparisonAtom lib r op lhs rhs st) (comparisonAtom lib r' op lhs rhs st') :=
  ⟨evalComparison_below op left right, ⟨alike.rest, alike.errored⟩⟩

theorem operandAtom_improves {t : Token} (left : ∀ v, (r.left t).value = some v →
      (r'.left t).value = some v ∧ (r'.left t).variableDerived = (r.left t).variableDerived)
    {st st' : ParseState} (alike : Alike st st') :
    Improves (operandAtom lib r t st) (operandAtom lib r' t st') := by
  refine ⟨?_, ⟨alike.rest, alike.errored⟩⟩
  unfold operandAtom
  dsimp only
  cases value : (r.left t).value with
  | none => split_ifs <;> exact .unknown _
  | some v =>
    obtain ⟨value', derived⟩ := left v value
    rw [value', derived]
    exact .refl _

theorem parse_improves (fuel : ℕ) :
    (∀ st st', Alike st st' → Refines r r' st.rest →
      Improves (parseLogical lib r fuel st) (parseLogical lib r' fuel st')) ∧
    (∀ v v' st st', Below v v' → Alike st st' → Refines r r' st.rest →
      Improves (logicalTail lib r fuel v st) (logicalTail lib r' fuel v' st')) ∧
    (∀ st st', Alike st st' → Refines r r' st.rest →
      Improves (parseUnary lib r fuel st) (parseUnary lib r' fuel st')) ∧
    (∀ st st', Alike st st' → Refines r r' st.rest →
      Improves (parseAtom lib r fuel st) (parseAtom lib r' fuel st')) := by
  have failed {st st' : ParseState} (alike : Alike st st') :
      Improves (.unknown, st.fail) (.unknown, st'.fail) := ⟨.refl _, alike.rest, rfl⟩
  induction fuel with
  | zero =>
    exact ⟨fun _ _ alike _ => failed alike, fun _ _ _ _ _ alike _ => failed alike,
      fun _ _ alike _ => failed alike, fun _ _ alike _ => failed alike⟩
  | succ fuel ih =>
    obtain ⟨logical, tail, unary, atom⟩ := ih
    refine ⟨?_, ?_, ?_, ?_⟩
    · intro st st' alike refines
      have first := unary st st' alike refines
      have kept := refines.suffix ((parse_suffix lib r fuel).2.2.1 st)
      exact tail _ _ _ _ first.below first.alike kept
    · rintro v v' ⟨tokens, names, bad⟩ ⟨tokens', names', bad'⟩ below ⟨rfl, rfl⟩ refines
      rw [logicalTail, logicalTail]
      cases tokens' with
      | nil => exact ⟨below, rfl, rfl⟩
      | cons t rest =>
        have behind : Refines r r' rest := refines.suffix (List.suffix_cons t rest)
        have rhs := unary ⟨rest, names, bad'⟩ ⟨rest, names', bad'⟩ ⟨rfl, rfl⟩ behind
        have kept := behind.suffix ((parse_suffix lib r fuel).2.2.1 ⟨rest, names, bad'⟩)
        dsimp only
        split_ifs
        · exact tail _ _ _ _ (below.kleeneAnd rhs.below) rhs.alike kept
        · exact tail _ _ _ _ (below.kleeneOr rhs.below) rhs.alike kept
        · exact ⟨below, rfl, rfl⟩
    · rintro ⟨tokens, names, bad⟩ ⟨tokens', names', bad'⟩ ⟨rfl, rfl⟩ refines
      rw [parseUnary, parseUnary]
      have alone := atom ⟨tokens', names, bad'⟩ ⟨tokens', names', bad'⟩ ⟨rfl, rfl⟩ refines
      cases tokens' with
      | nil => exact alone
      | cons t rest =>
        dsimp only
        split_ifs
        · have inner := unary ⟨rest, names, bad'⟩ ⟨rest, names', bad'⟩ ⟨rfl, rfl⟩
            (refines.suffix (List.suffix_cons t rest))
          exact ⟨inner.below.kleeneNot, inner.alike⟩
        · exact alone
    · rintro ⟨tokens, names, bad⟩ ⟨tokens', names', bad'⟩ ⟨rfl, rfl⟩ refines
      rw [parseAtom, parseAtom]
      cases tokens' with
      | nil => exact failed ⟨rfl, rfl⟩
      | cons t rest =>
        dsimp only
        split_ifs with opens
        · have inner := logical ⟨rest, names, bad'⟩ ⟨rest, names', bad'⟩ ⟨rfl, rfl⟩
            (refines.suffix (List.suffix_cons t rest))
          generalize parseLogical lib r fuel ⟨rest, names, bad'⟩ = done at inner
          generalize parseLogical lib r' fuel ⟨rest, names', bad'⟩ = done' at inner
          obtain ⟨v, left, seen, wrong⟩ := done
          obtain ⟨v', left', seen', wrong'⟩ := done'
          obtain ⟨below, rfl, rfl⟩ := inner
          cases left' with
          | nil => exact failed ⟨rfl, rfl⟩
          | cons close behind =>
            dsimp only
            split_ifs
            · exact ⟨below, rfl, rfl⟩
            · exact failed ⟨rfl, rfl⟩
        · have left := refines.left t (.head rest)
          cases rest with
          | nil => exact operandAtom_improves left ⟨rfl, rfl⟩
          | cons next behind =>
            dsimp only
            cases isOp : comparisonOp next with
            | none => exact operandAtom_improves left ⟨rfl, rfl⟩
            | some op =>
              cases behind with
              | nil => exact ⟨.refl _, rfl, rfl⟩
              | cons rhs behind =>
                have isRight : rhs ∈ rightTokens (t :: next :: rhs :: behind) := by
                  refine rightTokens_cons t ?_
                  rw [rightTokens, isOp, if_pos Option.isSome_some]
                  exact .head _
                exact comparisonAtom_improves op (fun v known => (left v known).1)
                  (refines.right rhs isRight) ⟨rfl, rfl⟩

theorem evalTokens_below {toks : List Token} (refines : Refines r r' toks) :
    Below (evalTokens lib r toks).1 (evalTokens lib r' toks).1 := by
  have done := (@parse_improves lib r r' (parseFuel toks)).1 { rest := toks } { rest := toks }
    ⟨rfl, rfl⟩ refines
  unfold evalTokens
  dsimp only
  rw [done.alike.rest, done.alike.errored]
  split_ifs
  · exact .refl _
  · exact done.below

end Parse

/-- Every certain value of the first environment is a certain value of the second. -/
structure Knows (e e' : VarEnv) : Prop where
  values : ∀ name value, lookupCertain e name = some value → lookupCertain e' name = some value
  root : e.vcpkgRoot ≠ [] → e'.vcpkgRoot = e.vcpkgRoot

structure Clean (g : Gathered) : Prop where
  resolved : g.unresolved = []
  certain : g.certainty = .isTrue

def Follows (replace replace' : Text → Gathered → Text × Gathered) : Prop :=
  ∀ text g, Clean (replace text g).2 → Clean g ∧ replace' text g = replace text g

section Expand

variable {e e' : VarEnv}

theorem replaceEnv_follows (knows : Knows e e') : Follows (replaceEnv e) (replaceEnv e') := by
  intro name g clean
  unfold replaceEnv at clean ⊢
  by_cases root : name = "VCPKG_ROOT".toList ∧ e.vcpkgRoot ≠ []
  · rw [if_pos root] at clean ⊢
    have same := knows.root root.2
    rw [same, if_pos root]
    exact ⟨⟨clean.resolved, clean.certain⟩, rfl⟩
  · rw [if_neg root] at clean
    exact absurd clean.resolved (List.append_ne_nil_of_right_ne_nil _ (List.cons_ne_nil _ _))

theorem lookupCertain_eq_some {name value : Text} : lookupCertain e name = some value ↔
    (taintOf e name).guard = .isTrue ∧ lookup e name = some value := by
  unfold lookupCertain
  split_ifs with tainted
  · exact ⟨nofun, fun both => absurd both.1 tainted⟩
  · exact ⟨fun found => ⟨not_not.mp tainted, found⟩, fun both => both.2⟩

theorem replaceVar_follows (knows : Knows e e') : Follows (replaceVar e) (replaceVar e') := by
  intro name g clean
  unfold replaceVar at clean ⊢
  cases found : lookup e name with
  | none =>
    rw [found] at clean
    exact absurd clean.resolved (List.append_ne_nil_of_right_ne_nil _ (List.cons_ne_nil _ _))
  | some value =>
    rw [found] at clean
    dsimp only at clean ⊢
    by_cases certain : (taintOf e name).guard = .isTrue
    · obtain ⟨certain', found'⟩ := lookupCertain_eq_some.mp
        (knows.values name value (lookupCertain_eq_some.mpr ⟨certain, found⟩))
      rw [if_neg (not_not.mpr certain)] at clean ⊢
      rw [found']
      rw [if_neg (not_not.mpr certain')]
      exact ⟨⟨clean.resolved, clean.certain⟩, rfl⟩
    · rw [if_pos certain] at clean
      exact absurd (kleeneAnd_eq_isTrue.mp clean.certain).2 certain

theorem replaceAll_follows {replace replace' : Text → Gathered → Text × Gathered}
    (follows : Follows replace replace') (opener text : Text) (skip : ℕ) (g : Gathered)
    (clean : Clean (replaceAll opener replace text skip g).2) :
    Clean g ∧ replaceAll opener replace' text skip g = replaceAll opener replace text skip g := by
  induction text generalizing skip g with
  | nil => exact ⟨clean, rfl⟩
  | cons c rest ih =>
    cases skip with
    | succ skip =>
      exact ih skip g clean
    | zero =>
      rw [replaceAll] at clean ⊢
      rw [replaceAll]
      cases reference : referenceAt opener (c :: rest) with
      | none =>
        rw [reference] at clean
        obtain ⟨before, same⟩ := ih 0 g clean
        rw [same]
        exact ⟨before, rfl⟩
      | some name =>
        rw [reference] at clean
        obtain ⟨middle, same⟩ := ih _ _ clean
        obtain ⟨before, replaced⟩ := follows name g middle
        dsimp only
        rw [replaced, same]
        exact ⟨before, rfl⟩

theorem expandPass_follows (knows : Knows e e') : Follows (expandPass e) (expandPass e') := by
  intro text g clean
  unfold expandPass at clean ⊢
  obtain ⟨middle, second⟩ := replaceAll_follows (replaceVar_follows knows) _ _ _ _ clean
  obtain ⟨before, first⟩ := replaceAll_follows (replaceEnv_follows knows) _ _ _ _ middle
  rw [first, second]
  exact ⟨⟨before.resolved, before.certain⟩, rfl⟩

theorem expandPasses_follows (knows : Knows e e') (passes : ℕ) :
    Follows (expandPasses e passes) (expandPasses e' passes) := by
  induction passes with
  | zero => exact fun text g clean => ⟨clean, rfl⟩
  | succ passes ih =>
    intro text g clean
    rw [expandPasses] at clean ⊢
    rw [expandPasses]
    by_cases changed : (expandPass e text g).2.changed = true
    · rw [if_pos changed] at clean ⊢
      obtain ⟨middle, later⟩ := ih _ _ clean
      obtain ⟨before, first⟩ := expandPass_follows knows text g middle
      rw [first, if_pos changed]
      exact ⟨before, later⟩
    · rw [if_neg changed] at clean ⊢
      obtain ⟨before, first⟩ := expandPass_follows knows text g clean
      rw [first, if_neg changed]
      exact ⟨before, rfl⟩

theorem dedupStrings_eq_nil {texts : List Text} : dedupStrings texts = [] ↔ texts = [] := by
  unfold dedupStrings
  cases texts with
  | nil => exact Iff.rfl
  | cons first rest =>
    rw [List.eraseDups_cons]
    exact ⟨fun no => absurd no (List.cons_ne_nil _ _), fun no => absurd no (List.cons_ne_nil _ _)⟩

theorem operand_follows (knows : Knows e e') {t : Token} {value : Text}
    (known : (operandFromExpansion (expandToken e t)).1 = some value) :
    (operandFromExpansion (expandToken e' t)).1 = some value := by
  have same : operandFromExpansion (expandToken e' t) = operandFromExpansion (expandToken e t) := by
    unfold expandToken at known ⊢
    split_ifs at known ⊢
    · rfl
    · unfold operandFromExpansion at known
      split_ifs at known with open_
      obtain ⟨certain, resolved⟩ := not_or.mp open_
      have clean : Clean (expandPasses e 8 t.text {}).2 :=
        ⟨dedupStrings_eq_nil.mp (not_not.mp resolved), not_not.mp certain⟩
      obtain ⟨-, follows⟩ := expandPasses_follows knows 8 t.text {} clean
      unfold expand
      rw [follows]
  rw [same]
  exact known

end Expand

section Operands

variable {lib : Library} {e e' : VarEnv} {t : Token} {value : Text}

theorem resolveUnquoted_follows (knows : Knows e e')
    (known : (resolveUnquoted lib e t).value = some value) :
    (resolveUnquoted lib e' t).value = some value ∧
      (resolveUnquoted lib e' t).variableDerived = (resolveUnquoted lib e t).variableDerived := by
  unfold resolveUnquoted at known ⊢
  split_ifs at known ⊢
  · exact ⟨known, rfl⟩
  · cases found : lookupCertain e t.text with
    | none =>
      rw [found] at known
      cases known
    | some certain =>
      rw [found] at known
      rw [knows.values _ _ found]
      exact ⟨known, rfl⟩
  · exact ⟨operand_follows knows known, rfl⟩

theorem resolveOperand_follows (knows : Knows e e')
    (known : (resolveOperand lib e t).value = some value) :
    (resolveOperand lib e' t).value = some value ∧
      (resolveOperand lib e' t).variableDerived = (resolveOperand lib e t).variableDerived := by
  unfold resolveOperand at known ⊢
  split_ifs at known ⊢
  · exact ⟨operand_follows knows known, rfl⟩
  · cases reference : varRefFull t.text with
    | none =>
      rw [reference] at known
      exact resolveUnquoted_follows knows known
    | some name =>
      rw [reference] at known
      dsimp only at known ⊢
      cases found : lookupCertain e name with
      | none =>
        rw [found] at known
        cases known
      | some certain =>
        rw [found] at known
        rw [knows.values _ _ found]
        exact resolveUnquoted_follows knows known

def lookedUp (lib : Library) (text : Text) : Option Text :=
  if isConstant lib text = false ∧ plainIdent text = true then some text else none

/-- Its own word, or the word that is the certain value of the variable it refers to. -/
def rightName (lib : Library) (e : VarEnv) (t : Token) : Option Text :=
  if t.quoted then none
  else
    match varRefFull t.text with
    | some name => (lookupCertain e name).bind (lookedUp lib)
    | none => lookedUp lib t.text

/-- A name right of a comparison that has no certain value gets none. -/
def StaysText (lib : Library) (e e' : VarEnv) (t : Token) : Prop :=
  ∀ name ∈ rightName lib e t, lookupCertain e name = none → lookupCertain e' name = none
  deriving Decidable

theorem resolveUnquotedRHS_follows (knows : Knows e e')
    (stays : lookedUp lib t.text = some t.text → lookupCertain e t.text = none →
      lookupCertain e' t.text = none)
    (known : (resolveUnquotedRHS lib e t).1 = some value) :
    (resolveUnquotedRHS lib e' t).1 = some value := by
  unfold resolveUnquotedRHS at known ⊢
  split_ifs at known ⊢ with constant ident
  · exact known
  · cases found : lookupCertain e t.text with
    | none =>
      have named : lookedUp lib t.text = some t.text := by
        unfold lookedUp
        rw [if_pos ⟨Bool.not_eq_true _ ▸ constant, ident⟩]
      rw [found] at known
      rw [stays named found]
      exact known
    | some certain =>
      rw [found] at known
      rw [knows.values _ _ found]
      exact known
  · exact operand_follows knows known

theorem resolveComparisonRHS_follows (knows : Knows e e') (stays : StaysText lib e e' t)
    (known : (resolveComparisonRHS lib e t).1 = some value) :
    (resolveComparisonRHS lib e' t).1 = some value := by
  unfold StaysText rightName at stays
  unfold resolveComparisonRHS at known ⊢
  split_ifs at known stays ⊢
  · exact operand_follows knows known
  · cases reference : varRefFull t.text with
    | none =>
      rw [reference] at known stays
      exact resolveUnquotedRHS_follows knows (fun named => stays t.text named) known
    | some name =>
      rw [reference] at known stays
      dsimp only at known ⊢
      cases found : lookupCertain e name with
      | none =>
        rw [found] at known
        cases known
      | some certain =>
        rw [found] at known
        rw [knows.values _ _ found]
        refine resolveUnquotedRHS_follows knows (fun named => stays certain ?_) known
        dsimp only
        rw [found]
        exact named

end Operands

/-- A condition that is decided stays decided in an environment that knows more, as long as no word
right of a comparison that was taken as text becomes a variable. -/
theorem evalCondition_monotone (lib : Library) {raw : Text} {e e' : VarEnv} (knows : Knows e e')
    (stays : ∀ toks ∈ tokenize raw, ∀ t ∈ rightTokens toks, StaysText lib e e' t)
    {value : Tri} {unresolved : List Text}
    (decided : evalCondition lib raw e = some (value, unresolved)) (known : value ≠ .unknown) :
    ∃ unresolved', evalCondition lib raw e' = some (value, unresolved') := by
  unfold evalCondition at decided ⊢
  obtain ⟨toks, lexed, evaluated⟩ := Option.map_eq_some_iff.mp decided
  have refines : Refines (envResolver lib e) (envResolver lib e') toks :=
    ⟨fun t _ v known => resolveOperand_follows knows known,
      fun t listed v known => resolveComparisonRHS_follows knows (stays toks lexed t listed) known⟩
  have below := @evalTokens_below lib _ _ toks refines
  rw [evaluated] at below
  refine ⟨(evalTokens lib (envResolver lib e') toks).2, ?_⟩
  rw [lexed, Option.map_some]
  exact congrArg some (Prod.ext (below.eq_of_known known) rfl)

def plainLibrary : Library where
  toUpper := List.map Char.toUpper
  trimSpace := fun text => ((text.dropWhile (· = ' ')).reverse.dropWhile (· = ' ')).reverse
  Number := ℕ
  zero := 0
  equal := fun a b => a = b
  parseFloat := fun text =>
    if text ≠ [] ∧ text.all isVersionDigit then
      some (text.foldl (fun n c => 10 * n + (c.toNat - '0'.toNat)) 0)
    else none

def factsEnv (facts : List (String × String)) : VarEnv :=
  newVarEnv [] [] [] [] (facts.map (fun fact => (fact.1.toList, fact.2.toList)))

theorem knows_setValue {e : VarEnv} {name : Text} (absent : lookup e name = none)
    (value : SerializedValue) : Knows e (e.setValue name value) := by
  refine ⟨fun other text certain => ?_, fun _ => rfl⟩
  obtain ⟨untainted, found⟩ := lookupCertain_eq_some.mp certain
  have different : other ≠ name := by
    rintro rfl
    rw [absent] at found
    cases found
  have kept : (e.setValue name value).values.lookup other = e.values.lookup other :=
    AList.lookup_insert_ne different
  refine lookupCertain_eq_some.mpr ⟨?_, ?_⟩
  · unfold taintOf
    rw [kept]
    exact untainted
  · unfold lookup
    rw [kept]
    exact found

def knownA : VarEnv := factsEnv [("A", "x86")]

def knownAB : VarEnv := knownA.setValue ['B'] { text := "ON".toList }

theorem evalCondition_monotone_and :
    ∃ unresolved, evalCondition plainLibrary "A STREQUAL arm AND B".toList knownAB =
      some (.isFalse, unresolved) := by
  have decided : evalCondition plainLibrary "A STREQUAL arm AND B".toList knownA =
      some (.isFalse, [['B']]) := by decide +kernel
  exact evalCondition_monotone plainLibrary (knows_setValue (by decide +kernel) _)
    (by decide +kernel) decided (by decide)

/-- `A STREQUAL x86` is true as long as `x86` is no variable with a certain value. -/
theorem right_word_becomes_variable :
    Knows knownA (knownA.setValue "x86".toList { text := "arm".toList }) ∧
      evalCondition plainLibrary "A STREQUAL x86".toList knownA = some (.isTrue, []) ∧
      evalCondition plainLibrary "A STREQUAL x86".toList
        (knownA.setValue "x86".toList { text := "arm".toList }) = some (.isFalse, []) :=
  ⟨knows_setValue (by decide +kernel) _, by decide +kernel, by decide +kernel⟩

end McpLocalHub.PatchesApply.Knowledge
