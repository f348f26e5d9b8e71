/- Module: PatchesApply/EagerValues
   source: internal/vcpkgmcp/patchesapply/varenv.go, internal/vcpkgmcp/patchesapply/walk.go
   digest: A stored value is scanned for references at every read, and when that changes nothing.
   -/

import McpLocalHub.PatchesApply.ListRoundTrip

set_option autoImplicit false

namespace McpLocalHub.PatchesApply.EagerValues

open List

open CMakeGraph.Lexer (Text)
open Foundation.Kleene Foundation.Maps Lexer Values Assignments ValueBytes References ListRoundTrip

def OpensShown (root text : Text) : Prop :=
  ∃ name behind, ShownEnv root name ∧ text = envText name ++ behind

theorem OpensShown.append {root text : Text} (shown : OpensShown root text) (more : Text) :
    OpensShown root (text ++ more) := by
  obtain ⟨name, behind, isShown, rfl⟩ := shown
  exact ⟨name, behind ++ more, isShown, append_assoc _ _ _⟩

/-- Every opener is marked as literal, or opens the reference to an environment variable that is
shown as it is written. -/
def Inert (root : Text) (value : SerializedValue) : Prop :=
  ∀ i, openerWidth (value.text.drop i) ≠ 0 →
    serializedReferenceLiteralAt value i = true ∨ OpensShown root (value.text.drop i)

section Inert

variable {root : Text} {value : SerializedValue} {callMeta : ProvenanceMeta} {active : List Text}

structure Shown (root text : Text) (r : Reference) : Prop where
  isEnv : r.env = true
  name : ShownEnv root r.inner
  written : slice text r.start r.stop = envText r.inner

def AllLiteral (root : Text) (value : SerializedValue) (listed : List Segment) : Prop :=
  ∀ r, Segment.reference r ∈ listed →
    serializedReferenceLiteralAt value r.start = true ∨ Shown root value.text r

theorem Inert.allLiteral (inert : Inert root value) : AllLiteral root value (segments value.text) := by
  intro r listed
  have reads := reads_of_segment listed
  refine (inert r.start reads.opens).imp_right (fun ⟨name, behind, shown, whole⟩ => ?_)
  obtain ⟨isEnv, rfl, stop⟩ := reads.shown root name behind shown whole
  refine ⟨isEnv, shown, ?_⟩
  rw [slice, drop_take, stop, Nat.add_sub_cancel_left, whole, take_left]

theorem refer_shown {env : VarEnv} {text : Text} {r : Reference}
    (shown : Shown env.vcpkgRoot text r) (depth : ℕ) (prov : ProvenanceMeta) (active : List Text)
    (remaining : ℕ) :
    appendValueReference env (depth + 1) r prov active false remaining =
      emit (literalBytes (envText r.inner) (mergeProvenance { prov with
        pathUnresolved := dedupStrings (prov.pathUnresolved ++ [envText r.inner]) }
        certainProvenance .peer)) remaining := by
  have resolved : resolveName (appendValueReference env depth) r.inner active remaining =
      .ok (r.inner, certainProvenance, remaining) := by
    unfold resolveName
    rw [shown.name.plain]
    rfl
  rw [appendValueReference, resolved]
  dsimp only
  rw [if_pos shown.isEnv, if_neg shown.name.unknown, if_neg (by decide), append_assoc]
  rfl

variable {listed : List Segment} {bytes : List EvaluatedByte} {left : ℕ}

theorem resolved_literal {env env' : VarEnv} {depth : ℕ} (roots : env'.vcpkgRoot = env.vcpkgRoot)
    (literal : AllLiteral env.vcpkgRoot value listed) (remaining : ℕ) :
    appendSerializedResolved (appendValueReference env (depth + 1)) value callMeta active listed
        remaining =
      appendSerializedResolved (appendValueReference env' (depth + 1)) value callMeta active listed
        remaining := by
  induction listed generalizing remaining with
  | nil => rfl
  | cons segment later ih =>
    have same : appendSerializedResolved (appendValueReference env (depth + 1)) value callMeta
          active later =
        appendSerializedResolved (appendValueReference env' (depth + 1)) value callMeta
          active later :=
      funext (ih (fun r isR => literal r (.tail segment isR)))
    cases segment with
    | malformed => rfl
    | literal start stop => rw [appendSerializedResolved, appendSerializedResolved, same]
    | reference r =>
      rw [appendSerializedResolved, appendSerializedResolved, same]
      rcases literal r (.head later) with here | shown
      · rw [if_pos here, if_pos here]
      · rw [refer_shown shown, refer_shown (roots ▸ shown)]

theorem andThen_ok {first : Output} {second : ℕ → Output}
    (ok : first.andThen second = .ok (bytes, left)) : ∃ before middle behind,
      first = .ok (before, middle) ∧ second middle = .ok (behind, left) ∧ bytes = before ++ behind := by
  unfold Output.andThen at ok
  split at ok
  · cases ok
  · rename_i before middle
    split at ok
    · cases ok
    · rename_i behind left' evaluated
      obtain ⟨rfl, rfl⟩ := Prod.mk.inj (Except.ok.inj ok)
      exact ⟨before, middle, behind, rfl, evaluated, rfl⟩

theorem rangeBytes_text (value : SerializedValue) (callMeta : ProvenanceMeta) (start stop : ℕ) :
    (rangeBytes value callMeta start stop).map (fun b => b.byte) = slice value.text start stop := by
  unfold rangeBytes slice
  refine ext_getElem? (fun i => ?_)
  rw [List.getElem?_map, List.getElem?_mapIdx, Option.map_map]
  exact Option.map_id'

theorem resolved_text {env : VarEnv} {depth remaining : ℕ}
    (literal : AllLiteral env.vcpkgRoot value listed)
    (read : appendSerializedResolved (appendValueReference env (depth + 1)) value callMeta active
      listed remaining = .ok (bytes, left)) :
    Segment.malformed ∉ listed ∧
      bytes.map (fun b => b.byte) = listed.flatMap (Segment.slice value.text) := by
  induction listed generalizing remaining bytes with
  | nil =>
    obtain ⟨rfl, -⟩ := Prod.mk.inj (Except.ok.inj read)
    exact ⟨not_mem_nil, rfl⟩
  | cons segment later ih =>
    have step {own : List EvaluatedByte} (well : Segment.malformed ≠ segment)
        (written : own.map (fun b => b.byte) = Segment.slice value.text segment)
        (read : (emit own remaining).andThen
          (appendSerializedResolved (appendValueReference env (depth + 1)) value callMeta active
            later) = .ok (bytes, left)) :
        Segment.malformed ∉ segment :: later ∧ bytes.map (fun b => b.byte) =
          (segment :: later).flatMap (Segment.slice value.text) := by
      obtain ⟨before, middle, behind, emitted, rest, whole⟩ := andThen_ok read
      obtain ⟨fine, text⟩ := ih (fun r isR => literal r (.tail segment isR)) rest
      rw [whole, map_append, emit_ok emitted, written, text]
      exact ⟨fun bad => fine ((mem_cons.mp bad).resolve_left well), rfl⟩
    cases segment with
    | malformed => cases read
    | literal start stop =>
      exact step (by rintro ⟨⟩) (rangeBytes_text value callMeta start stop) read
    | reference r =>
      rw [appendSerializedResolved] at read
      by_cases here : serializedReferenceLiteralAt value r.start = true
      · rw [if_pos here] at read
        exact step (by rintro ⟨⟩) (rangeBytes_text value callMeta r.start r.stop) read
      · have shown := (literal r (.head later)).resolve_left here
        rw [if_neg here, refer_shown shown] at read
        refine step (by rintro ⟨⟩) ?_ read
        rw [literalBytes, map_map]
        exact (map_id' _).trans shown.written.symm

variable {env env' : VarEnv} {name : Text} {prov : ProvenanceMeta}

theorem readValue_inert (roots : env'.vcpkgRoot = env.vcpkgRoot) (inert : Inert env.vcpkgRoot value) :
    readValue env name value prov = readValue env' name value prov := by
  unfold readValue
  have depth : maxVariableDereferenceDepth - 1 = 30 + 1 := rfl
  rw [depth, resolved_literal roots inert.allLiteral]

theorem readValue_text (inert : Inert env.vcpkgRoot value)
    (read : readValue env name value prov = .ok bytes) :
    value.resolution = none ∧ bytes.map (fun b => b.byte) = value.text := by
  unfold readValue at read
  cases resolution : value.resolution with
  | some issue =>
    rw [resolution] at read
    cases read
  | none =>
    rw [resolution] at read
    obtain ⟨left, output⟩ := map_fst_ok read
    have depth : maxVariableDereferenceDepth - 1 = 30 + 1 := rfl
    rw [depth] at output
    obtain ⟨fine, text⟩ := resolved_text inert.allLiteral output
    exact ⟨rfl, text.trans (segments_tile fine)⟩

end Inert

variable {root text : Text}

def InertView (root : Text) (whole : List (Char × Bool)) : Prop :=
  ∀ i, openerWidth ((whole.map Prod.fst).drop i) ≠ 0 →
    whole[i]?.map Prod.snd = some true ∨ OpensShown root ((whole.map Prod.fst).drop i)

theorem inertView_separated {first second : List (Char × Bool)} (g : Bool)
    (inertFirst : InertView root first)
    (inertSecond : InertView root second) : InertView root (first ++ (';', g) :: second) := by
  intro i opens
  rw [map_append, map_cons] at opens ⊢
  by_cases before : i < first.length
  · rw [drop_append_of_le_length (by rw [length_map]; omega)] at opens ⊢
    rw [List.getElem?_append_left before]
    have separator : ';' ∉ "$ENV\x7b".toList := by decide
    exact (inertFirst i (opener_before separator opens)).imp_right (fun shown => shown.append _)
  · obtain ⟨j, rfl⟩ : ∃ j, i = first.length + j := ⟨i - first.length, by omega⟩
    rw [List.getElem?_append_right (Nat.le_add_right _ _), Nat.add_sub_cancel_left]
    have behind : ((first.map Prod.fst) ++ ';' :: second.map Prod.fst).drop (first.length + j) =
        (';' :: second.map Prod.fst).drop j := by
      rw [← drop_drop, drop_left' (length_map _)]
    rw [behind] at opens ⊢
    cases j with
    | zero => exact absurd (openerWidth_other _ (by decide)) opens
    | succ j => exact inertSecond j opens

theorem inertView_joined {views : List (List (Char × Bool))} {whole : List (Char × Bool)}
    (joined : Joined views whole) (inert : ∀ view ∈ views, InertView root view) : InertView root whole := by
  induction joined with
  | single view => exact inert view (.head [])
  | cons view g rest ih =>
    exact inertView_separated g (inert view (.head _)) (ih (fun v listed => inert v (.tail view listed)))

theorem inertView_constant {flag : Bool}
    (marked : ∀ i, openerWidth (text.drop i) ≠ 0 → flag = true ∨ OpensShown root (text.drop i)) :
    InertView root (text.map (fun c => (c, flag))) := by
  intro i opens
  have texts : (text.map (fun c => (c, flag))).map Prod.fst = text := by
    rw [map_map]
    exact map_id' text
  rw [texts] at opens ⊢
  have inside : i < text.length := by
    by_contra beyond
    rw [drop_eq_nil_of_le (by omega)] at opens
    exact opens rfl
  exact (marked i opens).imp_left (fun same => by simp [inside, same])

section Store

variable {items : List SemanticItem} {existing appended value : SerializedValue}

theorem view_constant (f : ProvenanceSpan → Bool) {item : SemanticItem} {bytes : List EvaluatedByte}
    (made : MadeOf item bytes) {flag : Bool}
    (same : ∀ span : ProvenanceSpan, span.literalReferences = item.literalReferences → f span = flag) :
    view f false item.text (itemSpans item) = item.text.map (fun c => (c, flag)) := by
  rw [view_item f false made (fun b _ span _ literal => same span literal), made.text, map_map]
  rfl

theorem attribute_of_view {f : ProvenanceSpan → Bool} {text : Text} {spans : List ProvenanceSpan}
    {i : ℕ} (marked : (view f false text spans)[i]?.map Prod.snd = some true) :
    attributeAt f false spans i = true := by
  unfold view at marked
  rw [List.getElem?_mapIdx, Option.map_map] at marked
  obtain ⟨c, -, flag⟩ := Option.map_eq_some_iff.mp marked
  exact flag

theorem inert_of_view (inert : InertView root (literalView value)) : Inert root value := by
  intro i opens
  have either := inert i (by rwa [view_text])
  rw [view_text] at either
  refine either.imp_left (fun isMarked => ?_)
  have marked := attribute_of_view isMarked
  unfold attributeAt at marked
  unfold serializedReferenceLiteralAt
  cases found : spanAt value.spans i with
  | none =>
    rw [found] at marked
    cases marked
  | some span =>
    rw [found] at marked
    exact marked

theorem inert_empty (resolution : Option Issue) : Inert root { resolution := resolution } := by
  intro i opens
  exact absurd (by simp; rfl) opens

theorem serializeItems_inert (made : Made items)
    (marked : ∀ item ∈ items, ∀ i, openerWidth (item.text.drop i) ≠ 0 →
      item.literalReferences = true ∨ OpensShown root (item.text.drop i)) :
    Inert root (serializeItems items) := by
  by_cases some_ : items = []
  · rw [some_]
    exact inert_empty none
  · have shown := @serializeItems_shows Bool (fun span => span.literalReferences) false
      (fun _ _ => rfl) items made some_
    refine inert_of_view (inertView_joined shown.joined (fun v listed => ?_))
    obtain ⟨item, isItem, rfl⟩ := mem_map.mp listed
    obtain ⟨bytes, madeItem⟩ := made item isItem
    rw [view_constant _ madeItem (fun _ same => same)]
    exact inertView_constant (marked item isItem)

theorem serializeItems_shown (made : Made items)
    (shown : ∀ item ∈ items, ∀ i, openerWidth (item.text.drop i) ≠ 0 →
      OpensShown root (item.text.drop i)) {i : ℕ}
    (opens : openerWidth ((serializeItems items).text.drop i) ≠ 0) :
    OpensShown root ((serializeItems items).text.drop i) := by
  by_cases some_ : items = []
  · rw [some_] at opens
    exact absurd (by simp [serializeItems]; rfl) opens
  · have views := @serializeItems_shows Bool (fun _ => false) false (fun _ _ => rfl) items made some_
    have inert := inertView_joined views.joined (fun v listed => by
      obtain ⟨item, isItem, rfl⟩ := mem_map.mp listed
      obtain ⟨bytes, madeItem⟩ := made item isItem
      rw [view_constant _ madeItem (fun _ _ => rfl)]
      exact inertView_constant (fun i opens => .inr (shown item isItem i opens)))
    have either := inert i (by rwa [view_text])
    rw [view_text] at either
    refine either.resolve_left (fun isMarked => ?_)
    have marked := attribute_of_view isMarked
    unfold attributeAt at marked
    cases found : spanAt (serializeItems items).spans i <;> rw [found] at marked <;> cases marked

/-- A value that refers to no variable, with items behind it that refer to none. A bracket argument
is marked only in front. -/
structure Eager (root : Text) (existing : SerializedValue) (items : List SemanticItem) : Prop where
  inert : Inert root existing
  marked : ∀ item ∈ items, ∀ i, openerWidth (item.text.drop i) ≠ 0 →
    item.literalReferences = true ∧ existing.text = [] ∨ OpensShown root (item.text.drop i)

theorem append_inert (made : Made items) (eager : Eager root existing items)
    (resolution : Option Issue) :
    Inert root (appendSerializedValue existing { serializeItems items with resolution := resolution }) := by
  unfold appendSerializedValue
  split_ifs with first second
  · exact serializeItems_inert made
      (fun item listed i opens => (eager.marked item listed i opens).imp_left And.left)
  · exact eager.inert
  · have shown (item : SemanticItem) (listed : item ∈ items) (i : ℕ)
        (opens : openerWidth (item.text.drop i) ≠ 0) : OpensShown root (item.text.drop i) :=
      (eager.marked item listed i opens).resolve_left (fun marked => first marked.2)
    intro i opens
    have text : existing.text ++ [';'] ++ (serializeItems items).text =
        existing.text ++ ';' :: (serializeItems items).text := by
      rw [append_assoc, singleton_append]
    have opens' : openerWidth ((existing.text ++ ';' :: (serializeItems items).text).drop i) ≠ 0 := by
      rw [← text]
      exact opens
    change _ ∨ OpensShown root ((existing.text ++ [';'] ++ (serializeItems items).text).drop i)
    rw [text]
    by_cases before : i < existing.text.length
    · rw [drop_append_of_le_length (Nat.le_of_lt before)] at opens' ⊢
      refine (eager.inert i (opener_before (by decide) opens')).imp (fun literal => ?_)
        (fun shown => shown.append _)
      unfold serializedReferenceLiteralAt at literal ⊢
      have inside : i < (pushSeparator existing).text.length := by
        unfold pushSeparator SerializedValue.extend
        rw [length_append]
        omega
      have kept : spanAt (pushSeparator existing).spans i = spanAt existing.spans i :=
        spanAt_extend_before before
      rw [spanAt_extend_before inside, kept]
      exact literal
    · obtain ⟨j, rfl⟩ : ∃ j, i = existing.text.length + j := ⟨i - existing.text.length, by omega⟩
      rw [← drop_drop, drop_left] at opens' ⊢
      cases j with
      | zero => exact absurd (openerWidth_other _ (by decide)) opens'
      | succ j => exact .inr (serializeItems_shown made shown opens')

def joinTexts (first second : Text) : Text :=
  if first = [] then second else if second = [] then first else first ++ ';' :: second

theorem append_text (existing appended : SerializedValue) :
    (appendSerializedValue existing appended).text = joinTexts existing.text appended.text := by
  unfold appendSerializedValue joinTexts
  split_ifs
  · rfl
  · rfl
  · exact (append_assoc _ _ _).trans rfl

theorem appended_resolution
    (resolved : (appendSerializedValue existing appended).resolution = none) :
    appended.resolution = none := by
  have merged : (appendSerializedValue existing appended).resolution =
      mergeResolution existing.resolution appended.resolution := by
    unfold appendSerializedValue
    split_ifs <;> rfl
  rw [merged] at resolved
  cases before : existing.resolution with
  | none =>
    rw [before] at resolved
    exact resolved
  | some issue =>
    rw [before] at resolved
    cases resolved

end Store

inductive Mutation
  | set (toks : List Token) (call : Call)
  | unset (toks : List Token) (call : Call)
  | list (toks : List Token) (call : Call)

namespace Mutation

def apply : Mutation → VarEnv → Option VarEnv
  | set toks call, env => some (handleSet toks env call)
  | unset toks call, env => handleUnset toks env call
  | list toks call, env => handleListAppend toks env call

def destinations : Mutation → List Text
  | set (first :: _) _ => [first.text]
  | set [] _ => []
  | unset (first :: _) _ => [first.text]
  | unset [] _ => []
  | list (subcommand :: destination :: rest) _ =>
    if subcommand.text = "APPEND".toList then [destination.text]
    else (listMutationDestinations (subcommand :: destination :: rest)).getD []
  | list _ _ => []

def run : List Mutation → VarEnv → Option VarEnv
  | [], env => some env
  | m :: later, env => (m.apply env).bind (run later)

end Mutation

structure Framed (name : Text) (env after : VarEnv) : Prop where
  value : after.values.lookup name = env.values.lookup name
  port : after.portName = env.portName
  dir : after.portDir = env.portDir
  root : after.vcpkgRoot = env.vcpkgRoot

namespace Framed

variable {name other : Text} {env mid after : VarEnv}

theorem refl (name : Text) (env : VarEnv) : Framed name env env := ⟨rfl, rfl, rfl, rfl⟩

theorem trans (first : Framed name env mid)
    (second : Framed name mid after) : Framed name env after :=
  ⟨second.value.trans first.value, second.port.trans first.port, second.dir.trans first.dir,
    second.root.trans first.root⟩

theorem setValue (different : name ≠ other) (value : SerializedValue) :
    Framed name env (env.setValue other value) :=
  ⟨AList.lookup_insert_ne different, rfl, rfl, rfl⟩

theorem unsetValue (different : name ≠ other) (prov : ProvenanceMeta) :
    Framed name env (env.unsetValue other prov) := by
  unfold VarEnv.unsetValue
  split
  · exact refl name env
  · exact ⟨AList.lookup_erase_ne different, rfl, rfl, rfl⟩
  · split
    · exact refl name env
    · exact setValue different _

theorem setValues {names : List Text} (absent : name ∉ names) (value : SerializedValue) :
    Framed name env (names.foldl (fun env other => env.setValue other value) env) := by
  induction names generalizing env with
  | nil => exact refl name env
  | cons first rest ih =>
    have different : name ≠ first := fun same => absent (same ▸ mem_cons_self)
    exact (setValue different value).trans (ih (fun listed => absent (.tail first listed)))

theorem serializedFor (framed : Framed name env after) :
    after.serializedFor name = env.serializedFor name := by
  unfold VarEnv.serializedFor
  rw [framed.value, framed.port, framed.dir]

end Framed

section Frame

variable {name : Text} {env after : VarEnv}

theorem handleSet_framed {first : Token} (different : name ≠ first.text) (rest : List Token)
    (call : Call) : Framed name env (handleSet (first :: rest) env call) := by
  rw [handleSet]
  split_ifs
  · exact .refl name env
  · exact .refl name env
  · exact ⟨rfl, rfl, rfl, rfl⟩
  · exact .setValue different _

theorem apply_framed {m : Mutation} (applied : m.apply env = some after)
    (absent : name ∉ m.destinations) : Framed name env after := by
  cases m with
  | set toks call =>
    cases applied
    cases toks with
    | nil => exact .refl name env
    | cons first rest => exact handleSet_framed (fun same => absent (by rw [same]; exact .head [])) rest call
  | unset toks call =>
    cases toks with
    | nil => cases applied
    | cons first rest =>
      have different : name ≠ first.text := fun same => absent (by rw [same]; exact .head [])
      cases rest with
      | cons second rest => cases applied
      | nil =>
        rw [Mutation.apply, handleUnset] at applied
        split_ifs at applied
        cases applied
        exact .unsetValue different call.prov
  | list toks call =>
    match toks with
    | [] => cases applied
    | [_] => cases applied
    | subcommand :: destination :: rest =>
      rw [Mutation.apply, handleListAppend] at applied
      rw [Mutation.destinations] at absent
      by_cases quoted : subcommand.quoted = true
      · rw [if_pos quoted] at applied
        cases applied
      rw [if_neg quoted] at applied
      by_cases isAppend : subcommand.text = "APPEND".toList
      case neg =>
        rw [if_pos isAppend] at applied
        rw [if_neg isAppend] at absent
        obtain ⟨names, known, rfl⟩ := Option.map_eq_some_iff.mp applied
        rw [known] at absent
        split_ifs
        · exact .refl name env
        · exact .setValues absent invalidated
      case pos =>
        rw [if_neg (not_not.mpr isAppend)] at applied
        rw [if_pos isAppend] at absent
        cases applied
        exact .setValue (fun same => absent (by rw [same]; exact .head [])) _

theorem run_framed {later : List Mutation} (ran : Mutation.run later env = some after)
    (absent : ∀ m ∈ later, name ∉ m.destinations) : Framed name env after := by
  induction later generalizing env with
  | nil =>
    obtain rfl := Option.some.inj ran
    exact .refl name env
  | cons m later ih =>
    obtain ⟨mid, applied, rest⟩ := Option.bind_eq_some_iff.mp ran
    exact (apply_framed applied (absent m (.head later))).trans
      (ih rest (fun other listed => absent other (.tail m listed)))

end Frame

inductive StoreKind
  | set | append

def storeStatement (store : Store) : StoreKind → Mutation
  | .set => .set (store.target :: store.values) store.call
  | .append => .list (word "APPEND" :: store.target :: store.values) store.call

def storeTokens (store : Store) : StoreKind → List Token
  | .set => store.setValues
  | .append => store.values

def existingValue (store : Store) (env : VarEnv) : StoreKind → SerializedValue
  | .set => {}
  | .append => (env.values.lookup store.target.text).getD {}

/-- The statement does store: a `set` for the parent scope or in a branch that is not taken does not. -/
def DoesStore (store : Store) : StoreKind → Prop
  | .set => store.values.any (isWord "PARENT_SCOPE") = false ∧ store.call.active ≠ .isFalse
  | .append => True

section Stored

variable {name : Text} {env stored after : VarEnv} {store : Store} {kind : StoreKind}

theorem stored_lookup (referable : Referable store.target.text) (does : DoesStore store kind)
    (applied : (storeStatement store kind).apply env = some stored) :
    stored.values.lookup store.target.text = some (appendSerializedValue (existingValue store env kind)
      (storedValue env store.call (storeTokens store kind))) := by
  cases kind with
  | set =>
    cases applied
    exact handleSet_lookup referable does.1 does.2
  | append =>
    cases applied
    exact AList.lookup_insert _

theorem stored_ports (applied : (storeStatement store kind).apply env = some stored) :
    stored.portName = env.portName ∧ stored.portDir = env.portDir ∧
      stored.vcpkgRoot = env.vcpkgRoot := by
  cases kind with
  | set =>
    cases applied
    rw [handleSet]
    split_ifs <;> exact ⟨rfl, rfl, rfl⟩
  | append =>
    cases applied
    exact ⟨rfl, rfl, rfl⟩

theorem evaluateItems_all {call : Call} {tokens : List Token}
    (fine : (evaluateItems env call tokens).2 = none) {t : Token} (listed : t ∈ tokens) :
    ∃ items, semanticItemsFromToken t env call = .ok items ∧
      items ⊆ (evaluateItems env call tokens).1 := by
  induction tokens with
  | nil => cases listed
  | cons first rest ih =>
    rw [evaluateItems] at fine ⊢
    cases evaluated : semanticItemsFromToken first env call with
    | error issue =>
      rw [evaluated] at fine
      cases fine
    | ok items =>
      rw [evaluated] at fine
      rcases mem_cons.mp listed with rfl | later
      · exact ⟨items, evaluated, subset_append_left _ _⟩
      · obtain ⟨found, isFound, among⟩ := ih fine later
        exact ⟨found, isFound, fun x isX => mem_append_right _ (among isX)⟩

theorem raw_items {t : Token} {call : Call} {items : List SemanticItem} (raw : t.raw = true)
    (evaluated : semanticItemsFromToken t env call = .ok items) :
    items.map (fun item => item.text) = [t.text] := by
  unfold semanticItemsFromToken VarEnv.evaluateValue at evaluated
  rw [if_pos raw] at evaluated
  cases output : emit (literalBytes t.text call.prov) maxPortfileBytes with
  | error issue =>
    rw [output] at evaluated
    cases evaluated
  | ok found =>
    rw [output] at evaluated
    cases evaluated
    have bytes : found.1 = literalBytes t.text call.prov := emit_ok output
    rw [displayed_map _ (fun _ _ => rfl), splitCMakeList, if_pos (.inr raw), map_singleton,
      bytes]
    have text : (itemOf (literalBytes t.text call.prov) t.raw).text = t.text := by
      unfold itemOf literalBytes
      rw [map_map]
      exact map_id' t.text
    rw [text]

end Stored

/-- `[[${U}]]` -/
def bracketToken : Token :=
  { text := referenceText ['U'], listText := referenceText ['U'], quoted := true, raw := true }

def setFirst : Store := ⟨word "V", [word "a"], ⟨.isTrue, [], []⟩⟩

def bracketStore : Store := ⟨word "V", [bracketToken], ⟨.isTrue, [], []⟩⟩

def setLater : Mutation := .set [word "U", word "x"] ⟨.isTrue, [], []⟩

def textsAfter (statements : List Mutation) : Option (Except Issue (List Text)) :=
  (Mutation.run statements freshEnv).map (fun env => Except.map (List.map (fun item => item.text))
    (semanticItemsFromToken (referenceToken ['V']) env ⟨.isTrue, [], []⟩))

def afterBracket : VarEnv :=
  handleSet (bracketStore.target :: bracketStore.values) freshEnv bracketStore.call

theorem bracketStore_eager : Eager freshEnv.vcpkgRoot
    (existingValue bracketStore freshEnv .set)
    (evaluateItems freshEnv bracketStore.call (storeTokens bracketStore .set)).1 := by
  have literal : ∀ item ∈ (evaluateItems freshEnv bracketStore.call
      (storeTokens bracketStore .set)).1, item.literalReferences = true := by decide +kernel
  exact ⟨inert_empty none, fun item listed _ _ => .inl ⟨literal item listed, rfl⟩⟩

end McpLocalHub.PatchesApply.EagerValues
