/- Module: PatchesApply/References
   source: internal/vcpkgmcp/patchesapply/varenv.go
   digest: Where the references of a text are, and what the unquoted reference to a variable is
   evaluated to. -/

import McpLocalHub.PatchesApply.ValueBytes

set_option autoImplicit false

namespace McpLocalHub.PatchesApply.References

open CMakeGraph.Lexer (Text)
open Foundation.Kleene Foundation.Maps Lexer Values ValueBytes List

section Plain

variable {text : Text}

theorem openerWidth_other {c : Char} (rest : Text)
    (other : '$' ≠ c) : openerWidth (c :: rest) = 0 := by
  unfold openerWidth
  simp [List.isPrefixOf, other]

theorem scanNext_plain (plain : '$' ∉ text) (pos : ℕ) : scanNext text pos = .none := by
  induction text generalizing pos with
  | nil => rfl
  | cons c rest ih =>
    obtain ⟨other, plain⟩ := ne_and_not_mem_of_not_mem_cons plain
    rw [scanNext, if_pos (.inl (Ne.symm other))]
    exact ih plain (pos + 1)

theorem segments_plain (plain : '$' ∉ text) (some_ : text ≠ []) :
    segments text = [.literal 0 text.length] := by
  unfold segments
  rw [segmentsFrom, if_neg some_, scanNext_plain plain]
  simp

variable {a b : Text}

theorem openerWidth_ne_zero : openerWidth text ≠ 0 ↔
    "$ENV\x7b".toList <+: text ∨ "$\x7b".toList <+: text := by
  rw [← isPrefixOf_iff_prefix, ← isPrefixOf_iff_prefix]
  unfold openerWidth
  split_ifs with long short
  · exact ⟨fun _ => .inl long, fun _ => by decide⟩
  · exact ⟨fun _ => .inr short, fun _ => by decide⟩
  · exact ⟨fun no => absurd rfl no, fun either => absurd either (by tauto)⟩

theorem prefix_before {opener : Text} {c : Char} (absent : c ∉ opener)
    (opens : opener <+: a ++ c :: b) : opener <+: a := by
  by_cases short : opener.length ≤ a.length
  · exact prefix_of_prefix_length_le opens (prefix_append a _) short
  · have separated : a ++ [c] <+: a ++ c :: b := by
      rw [append_cons a c b]
      exact prefix_append _ b
    have inside : a ++ [c] <+: opener := by
      refine prefix_of_prefix_length_le separated opens ?_
      rw [length_append, length_singleton]
      omega
    exact absurd (inside.subset (by simp)) absent

theorem opener_before {c : Char} (apart : c ∉ "$ENV\x7b".toList)
    (opens : openerWidth (a ++ c :: b) ≠ 0) : openerWidth a ≠ 0 := by
  have apart' : c ∉ "$\x7b".toList := fun listed => apart (by simp at listed ⊢; tauto)
  rw [openerWidth_ne_zero] at opens ⊢
  exact opens.imp (prefix_before apart) (prefix_before apart')

end Plain

/-- A name that stands as it is between the braces of a reference. -/
structure Referable (name : Text) : Prop where
  some_ : name ≠ []
  plain : containsOpener name = false
  closed : '\x7d' ∉ name

instance (name : Text) : Decidable (Referable name) :=
  decidable_of_iff (name ≠ [] ∧ containsOpener name = false ∧ '\x7d' ∉ name)
    ⟨fun all => ⟨all.1, all.2.1, all.2.2⟩, fun r => ⟨r.some_, r.plain, r.closed⟩⟩

/-- The name of an environment variable whose reference is shown as it is written. Of the environment
only the root of vcpkg may be known. -/
structure ShownEnv (root name : Text) : Prop where
  plain : containsOpener name = false
  closed : '\x7d' ∉ name
  unknown : ¬ (name = "VCPKG_ROOT".toList ∧ root ≠ [])

def envText (name : Text) : Text := "$ENV\x7b".toList ++ (name ++ ['\x7d'])

def Builtin (name : Text) : Prop := name = "PORT".toList ∨ name = "CURRENT_PORT_DIR".toList
  deriving Decidable

def referenceText (name : Text) : Text := '$' :: '\x7b' :: (name ++ ['\x7d'])

def referenceToken (name : Text) : Token :=
  { text := referenceText name, listText := referenceText name }

section Named

variable {name : Text}

theorem closeAt_name (plain : containsOpener name = false) (closed : '\x7d' ∉ name)
    (behind : Text) : closeAt (name ++ '\x7d' :: behind) 0 1 = some name.length := by
  induction name with
  | nil =>
    rw [nil_append, closeAt, openerWidth_other _ (by decide)]
    rfl
  | cons c rest ih =>
    obtain ⟨inside, closed⟩ := ne_and_not_mem_of_not_mem_cons closed
    rw [containsOpener, Bool.or_eq_false_iff, decide_eq_false_iff_not, not_not] at plain
    have shut : openerWidth (c :: (rest ++ '\x7d' :: behind)) = 0 := by
      by_contra opens
      exact opener_before (by decide) (show openerWidth (c :: rest ++ '\x7d' :: behind) ≠ 0 from opens)
        plain.1
    rw [cons_append, closeAt, shut]
    rw [if_neg (Ne.symm inside), ih plain.2 closed]
    rfl

theorem segments_reference (referable : Referable name) : segments (referenceText name) =
    [.literal 0 0, .reference ⟨0, name.length + 3, false, name⟩] := by
  have notEnv : "$ENV\x7b".toList.isPrefixOf (referenceText name) = false := by
    simp [referenceText, List.isPrefixOf]
  have found : scanNext (referenceText name) 0 = .found ⟨0, name.length + 3, false, name⟩ := by
    unfold referenceText at notEnv ⊢
    rw [scanNext, if_neg (by simp), notEnv]
    simp [closeAt_name referable.plain referable.closed []]
    omega
  have length : (referenceText name).length = name.length + 3 := by
    simp [referenceText]
  unfold segments
  rw [segmentsFrom, if_neg (show referenceText name ≠ [] from cons_ne_nil _ _), found]
  dsimp only
  rw [length, segmentsFrom, if_pos (by rw [← length, drop_length])]
  simp

variable {env : VarEnv} {value : SerializedValue}

theorem andThen_nil
    (output : Output) : output.andThen (fun remaining => .ok ([], remaining)) = output := by
  cases output with
  | error issue => rfl
  | ok found =>
    unfold Output.andThen
    dsimp only
    rw [append_nil]

theorem appendSource_reference (refer : Refer) (source : Text) (prov : ProvenanceMeta)
    (r : Reference) (remaining : ℕ) :
    appendSource refer source true prov [] false [.literal 0 0, .reference r] remaining =
      refer r prov [] false remaining := by
  have empty : emit (bareBytes prov ((source.take 0).drop 0)) remaining = .ok ([], remaining) := by
    simp [emit, bareBytes]
  have last : appendSource refer source true prov [] false [.reference r] remaining =
      refer r prov [] false remaining := by
    exact andThen_nil _
  rw [appendSource, if_pos rfl, empty]
  unfold Output.andThen
  dsimp only
  rw [last]
  cases refer r prov [] false remaining <;> rfl

theorem appendSource_plain {source : Text} (plain : '$' ∉ source) (refer : Refer) (bare : Bool)
    (prov : ProvenanceMeta) (active : List Text) (nested : Bool) (remaining : ℕ) :
    appendSource refer source bare prov active nested (segments source) remaining =
      emit (if bare then bareBytes prov source else literalBytes source prov) remaining := by
  by_cases some_ : source = []
  · subst some_
    cases bare <;> simp [segments, segmentsFrom, appendSource, emit, bareBytes, literalBytes]
  · have whole (first : Output) :
        first.andThen (appendSource refer source bare prov active nested []) = first :=
      andThen_nil first
    rw [segments_plain plain some_, appendSource, whole, drop_zero, take_length]

def readValue (env : VarEnv) (name : Text) (value : SerializedValue) (prov : ProvenanceMeta) :
    Except Issue (List EvaluatedByte) :=
  match value.resolution with
  | some issue => .error issue
  | none =>
    Except.map Prod.fst (appendSerializedResolved
      (appendValueReference env (maxVariableDereferenceDepth - 1)) value
      (mergeProvenance prov certainProvenance .peer) [name] (segments value.text)
      maxPortfileBytes)

theorem evaluate_reference (referable : Referable name) (prov : ProvenanceMeta)
    (known : env.serializedFor name = some value) :
    env.evaluateValue (referenceToken name) prov = readValue env name value prov := by
  have resolved (refer : Refer) : resolveName refer name [] maxPortfileBytes =
      .ok (name, certainProvenance, maxPortfileBytes) := by
    unfold resolveName
    rw [referable.plain]
    rfl
  have evaluated : env.evaluateValue (referenceToken name) prov =
      Except.map Prod.fst (appendSource (appendValueReference env maxVariableDereferenceDepth)
        (referenceText name) true prov [] false (segments (referenceText name)) maxPortfileBytes) := rfl
  have depth : maxVariableDereferenceDepth = (maxVariableDereferenceDepth - 1) + 1 := rfl
  rw [evaluated, segments_reference referable, appendSource_reference, depth, appendValueReference,
    resolved]
  dsimp only
  rw [if_neg (by decide), if_neg referable.some_, known]
  unfold readValue
  dsimp only
  cases failed : value.resolution with
  | some issue => rfl
  | none =>
    rw [if_neg not_mem_nil]

end Named

section Scan

variable {text : Text} {pos : ℕ} {r : Reference}

theorem closeAt_lt {skip depth n : ℕ} (closes : closeAt text skip depth = some n) :
    n < text.length := by
  induction text generalizing skip depth n with
  | nil => cases closes
  | cons c rest ih =>
    have behind {skip depth : ℕ}
        (found : (closeAt rest skip depth).map (· + 1) = some n) : n < (c :: rest).length := by
      obtain ⟨m, isM, rfl⟩ := Option.map_eq_some_iff.mp found
      have bound := ih isM
      rw [length_cons]
      omega
    cases skip with
    | succ skip =>
      exact behind closes
    | zero =>
      rw [closeAt] at closes
      split at closes
      · exact behind closes
      · split_ifs at closes
        · cases closes
          exact Nat.zero_lt_succ _
        · exact behind closes
        · exact behind closes

/-- What stands where a reference begins: an opener, and the whole of it where it is shown as it is
written. -/
structure ReadsFrom (text : Text) (r : Reference) : Prop where
  opens : openerWidth text ≠ 0
  shown : ∀ root name behind, ShownEnv root name → text = envText name ++ behind →
    r.env = true ∧ r.inner = name ∧ r.stop = r.start + (envText name).length

structure FoundIn (text : Text) (pos : ℕ) (r : Reference) : Prop where
  behind : pos ≤ r.start
  some_ : r.start < r.stop
  inside : r.stop ≤ pos + text.length
  reads : ReadsFrom (text.drop (r.start - pos)) r

theorem FoundIn.cons {c : Char} {rest : Text} (found : FoundIn rest (pos + 1) r) :
    FoundIn (c :: rest) pos r := by
  obtain ⟨behind, some_, inside, reads⟩ := found
  have later : r.start - pos = (r.start - (pos + 1)) + 1 := by omega
  refine ⟨by omega, some_, by rw [length_cons]; omega, ?_⟩
  rwa [later, drop_succ_cons]

theorem scanNext_found (scanned : scanNext text pos = .found r) : FoundIn text pos r := by
  induction text generalizing pos with
  | nil => cases scanned
  | cons c rest ih =>
    rw [scanNext] at scanned
    split_ifs at scanned with short isEnv other
    · exact (ih scanned).cons
    · split at scanned
      · rename_i n closes
        obtain rfl := ReferenceScan.found.inj scanned
        have bound := closeAt_lt closes
        rw [length_drop] at bound
        refine ⟨Nat.le_refl pos, by dsimp only; omega, by rw [length_cons]; dsimp only; omega, ?_⟩
        rw [Nat.sub_self, drop_zero]
        refine ⟨by rw [openerWidth, if_pos isEnv]; decide, fun root name behind shown whole => ?_⟩
        have inner : rest.drop 4 = name ++ '\x7d' :: behind := by
          have cut := congrArg (List.drop 5) whole
          simpa [envText] using cut
        rw [inner, closeAt_name shown.plain shown.closed] at closes
        obtain rfl := Option.some.inj closes
        refine ⟨rfl, by dsimp only; rw [inner, take_left], ?_⟩
        simp [envText]
        omega
      · cases scanned
    · exact (ih scanned).cons
    · split at scanned
      · rename_i n closes
        obtain rfl := ReferenceScan.found.inj scanned
        have bound := closeAt_lt closes
        have dollar : c = '$' := by
          by_contra no
          exact short (.inl no)
        rw [length_drop] at bound
        refine ⟨Nat.le_refl pos, by dsimp only; omega, by rw [length_cons]; dsimp only; omega, ?_⟩
        obtain ⟨behind, rfl⟩ : ∃ behind, rest = '\x7b' :: behind := by
          cases rest with
          | nil => simp at other
          | cons d behind =>
            have brace : d = '\x7b' := by simpa using other
            exact ⟨behind, by rw [brace]⟩
        rw [Nat.sub_self, drop_zero]
        refine ⟨?_, fun root name behind' _ whole => ?_⟩
        · rw [openerWidth, dollar, if_neg (by rw [← dollar]; exact isEnv)]
          simp [List.isPrefixOf]
        · rw [whole] at isEnv
          exact absurd ( isPrefixOf_iff_prefix.mpr ⟨_, (append_assoc _ _ _).symm⟩) isEnv
      · cases scanned

end Scan

def slice (text : Text) (start stop : ℕ) : Text := (text.take stop).drop start

theorem slice_append {text : Text} {a b c : ℕ} (first : a ≤ b) (second : b ≤ c)
    (inside : b ≤ text.length) : slice text a b ++ slice text b c = slice text a c := by
  have cut : text.take c = text.take b ++ (text.take c).drop b := by
    conv_lhs => rw [← take_append_drop b (text.take c), take_take, Nat.min_eq_left second]
  have length : (text.take b).length = b := by rw [length_take, Nat.min_eq_left inside]
  unfold slice
  conv_rhs => rw [cut]
  rw [drop_append_of_le_length (by rw [length]; exact first)]

def Segment.slice (text : Text) : Segment → Text
  | .literal start stop => References.slice text start stop
  | .reference r => References.slice text r.start r.stop
  | .malformed => []

theorem segmentsFrom_spec (whole : Text) (fuel offset : ℕ) (enough : whole.length - offset < fuel)
    (inside : offset ≤ whole.length) :
    (∀ r, Segment.reference r ∈ segmentsFrom fuel (whole.drop offset) offset →
      ReadsFrom (whole.drop r.start) r) ∧
      (Segment.malformed ∉ segmentsFrom fuel (whole.drop offset) offset →
        (segmentsFrom fuel (whole.drop offset) offset).flatMap (Segment.slice whole) =
          whole.drop offset) := by
  induction fuel generalizing offset with
  | zero => exact absurd enough (Nat.not_lt_zero _)
  | succ fuel ih =>
    rw [segmentsFrom]
    split_ifs with done
    · exact ⟨nofun, fun _ => done.symm⟩
    · have toEnd : slice whole offset whole.length = whole.drop offset := by
        rw [slice, take_length]
      have length : offset + (whole.drop offset).length = whole.length := by
        rw [length_drop]
        omega
      split
      · exact ⟨fun r listed => by simp at listed, fun fine => absurd (.head []) fine⟩
      · refine ⟨fun r listed => by simp at listed, fun _ => ?_⟩
        rw [flatMap_singleton, Segment.slice, length, toEnd]
      · rename_i r scanned
        obtain ⟨-, some_, within, reads⟩ := scanNext_found scanned
        have bound : offset + r.stop ≤ whole.length := by omega
        have rest := ih (offset + r.stop) (by omega) bound
        rw [drop_drop]
        refine ⟨fun found listed => ?_, fun fine => ?_⟩
        · rcases mem_cons.mp listed with literal | listed
          · cases literal
          · rcases mem_cons.mp listed with here | later
            · obtain rfl := Segment.reference.inj here
              rw [Nat.sub_zero, drop_drop] at reads
              refine ⟨reads.opens, fun root name behind shown whole => ?_⟩
              obtain ⟨isEnv, inner, stop⟩ := reads.shown root name behind shown whole
              exact ⟨isEnv, inner, by dsimp only; omega⟩
            · exact rest.1 found later
        · have fineLater : Segment.malformed ∉
              segmentsFrom fuel (whole.drop (offset + r.stop)) (offset + r.stop) := fun listed =>
            fine (.tail _ (.tail _ listed))
          have tail := rest.2 fineLater
          have toEnd' : slice whole (offset + r.stop) whole.length =
              whole.drop (offset + r.stop) := by rw [slice, take_length]
          rw [flatMap_cons, flatMap_cons, tail, Segment.slice, Segment.slice, ← toEnd',
            slice_append (Nat.add_le_add_left (Nat.le_of_lt some_) offset) bound (by omega),
            slice_append (Nat.le_add_right offset r.start) (by omega) (by omega), toEnd]

theorem reads_of_segment {text : Text} {r : Reference}
    (listed : Segment.reference r ∈ segments text) : ReadsFrom (text.drop r.start) r :=
  (segmentsFrom_spec text (text.length + 1) 0 (by omega) (Nat.zero_le _)).1 r listed

theorem segments_tile {text : Text} (fine : Segment.malformed ∉ segments text) :
    (segments text).flatMap (Segment.slice text) = text :=
  (segmentsFrom_spec text (text.length + 1) 0 (by omega) (Nat.zero_le _)).2 fine

end McpLocalHub.PatchesApply.References
