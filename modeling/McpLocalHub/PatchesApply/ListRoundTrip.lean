/- Module: PatchesApply/ListRoundTrip
   source: internal/vcpkgmcp/patchesapply/varenv.go, internal/vcpkgmcp/patchesapply/lexer.go
   digest: A list that is stored by set and list(APPEND) is read back item by item. -/

import McpLocalHub.PatchesApply.References

set_option autoImplicit false

namespace McpLocalHub.PatchesApply.ListRoundTrip

open CMakeGraph.Lexer (Text)
open Foundation.Kleene Foundation.Maps Lexer Values Assignments ValueBytes References List

def PlainByte (c : Char) : Prop := c ≠ ';' ∧ c ≠ '[' ∧ c ≠ ']' ∧ c ≠ '$' ∧ c ≠ '\\'
  deriving Decidable

def keyed (b : EvaluatedByte) : Char × Tri := (b.byte, b.prov.guard)

theorem splitBytes_plain (piece rest : List EvaluatedByte) (current : List EvaluatedByte)
    (opens closes : ℕ) (plain : ∀ b ∈ piece, PlainByte b.byte) :
    splitBytes (piece ++ rest) current opens closes =
      splitBytes rest (current ++ piece) opens closes := by
  induction piece generalizing current with
  | nil => rw [nil_append, append_nil]
  | cons b piece ih =>
    obtain ⟨separator, opener, closer, -, -⟩ := plain b (.head piece)
    rw [cons_append, splitBytes, if_neg opener, if_neg closer, if_neg separator,
      ih _ (fun x listed => plain x (.tail b listed)), append_assoc, singleton_append]

variable {bytes : List EvaluatedByte}

theorem plain_bytes {view : List (Char × Tri)} (plain : view ≠ [] ∧ ∀ x ∈ view, PlainByte x.1)
    (same : bytes.map keyed = view) : bytes ≠ [] ∧ ∀ b ∈ bytes, PlainByte b.byte := by
  subst same
  exact ⟨fun none => plain.1 (congrArg (List.map keyed) none), fun b listed =>
    plain.2 (keyed b) (mem_map_of_mem listed)⟩

theorem splitBytes_joined {views : List (List (Char × Tri))} {whole : List (Char × Tri)}
    (joined : Joined views whole) (same : bytes.map keyed = whole)
    (unprotected : ∀ b ∈ bytes, b.protectedSemicolon = false)
    (plain : ∀ view ∈ views, view ≠ [] ∧ ∀ x ∈ view, PlainByte x.1) :
    (splitBytes bytes [] 0 0).map (List.map keyed) = views := by
  induction joined generalizing bytes with
  | single view =>
    obtain ⟨nonempty, plainBytes⟩ := plain_bytes (plain view (.head [])) same
    have whole := splitBytes_plain bytes [] [] 0 0 plainBytes
    rw [append_nil, nil_append] at whole
    rw [whole, splitBytes, flush, if_neg nonempty, map_singleton, same]
  | cons view g rest ih =>
    obtain ⟨piece, behind, rfl, samePiece, sameBehind⟩ := map_eq_append_iff.mp same
    obtain ⟨separator, later, rfl, sameSeparator, sameLater⟩ := map_eq_cons_iff.mp sameBehind
    obtain ⟨nonempty, plainPiece⟩ := plain_bytes (plain view (.head _)) samePiece
    have byte : separator.byte = ';' := congrArg Prod.fst sameSeparator
    have open_ : separator.protectedSemicolon = false := unprotected separator (by simp)
    have noSlash : (piece.getLast?.map (fun b => b.byte)) ≠ some '\\' := by
      intro slash
      obtain ⟨last, isLast, byte⟩ := Option.map_eq_some_iff.mp slash
      exact (plainPiece last (mem_of_getLast? isLast)).2.2.2.2 byte
    have splitLater := ih sameLater (fun b listed => unprotected b (by simp [listed]))
      (fun v listed => plain v (.tail _ listed))
    rw [splitBytes_plain _ _ _ _ _ plainPiece, nil_append, splitBytes, byte,
      if_neg (by decide), if_neg (by decide), if_pos rfl, open_, if_neg (by simp), if_neg noSlash,
      flush, if_neg nonempty, map_cons, samePiece, splitLater]

def itemView (item : SemanticItem) : List (Char × Tri) :=
  view (fun span => span.prov.guard) .isTrue item.text (itemSpans item)

theorem guard_combine (metas : List ProvenanceMeta) :
    (combineItemProvenance metas).guard = allOf (metas.map (fun m => m.guard)) := by
  have folded : ∀ m : ProvenanceMeta, (metas.foldl combineProvenance m).guard =
      (metas.map (fun m => m.guard)).foldl kleeneAnd m.guard := by
    induction metas with
    | nil => exact fun _ => rfl
    | cons first rest ih => exact fun m => ih (combineProvenance m first)
  exact folded certainProvenance

section View

variable {item : SemanticItem} {bytes : List EvaluatedByte}

theorem itemView_eq (made : MadeOf item bytes) : itemView item = bytes.map keyed :=
  view_item (fun span => span.prov.guard) .isTrue made (fun _ _ _ guard _ => guard)

theorem itemView_text (item : SemanticItem) : (itemView item).map Prod.fst = item.text :=
  view_text _ _ _ _

theorem itemView_guard (made : MadeOf item bytes) :
    allOf ((itemView item).map Prod.snd) = item.prov.guard := by
  rw [itemView_eq made, made.prov, guard_combine, map_map, map_map]
  rfl

end View

/-- An item that can stand in a list: some bytes, none of which means anything there. -/
def PlainItem (item : SemanticItem) : Prop := item.text ≠ [] ∧ ∀ c ∈ item.text, PlainByte c

instance (item : SemanticItem) : Decidable (PlainItem item) :=
  decidable_of_iff (item.text ≠ [] ∧ item.text.all (fun c => PlainByte c) = true)
    (and_congr_right (fun _ => by
      rw [all_eq_true]
      exact forall₂_congr (fun _ _ => decide_eq_true_iff)))

def Made (items : List SemanticItem) : Prop := ∀ item ∈ items, ∃ bytes, MadeOf item bytes

structure Represents (value : SerializedValue) (items : List SemanticItem) : Prop where
  fits : Fits value.spans value.text.length
  none : items = [] → value.text = []
  joined : items ≠ [] → Joined (items.map itemView) (guardView value)

section Represent

variable {value existing appended : SerializedValue} {items more : List SemanticItem}

theorem serializeItems_represents (made : Made items) (resolution : Option Issue) :
    Represents { serializeItems items with resolution := resolution } items := by
  by_cases some_ : items = []
  · subst some_
    exact ⟨nofun, fun _ => rfl, fun other => absurd rfl other⟩
  · have shown := @serializeItems_shows Tri (fun span => span.prov.guard) .isTrue (fun _ _ => rfl)
      items made some_
    exact ⟨shown.fits, fun none => absurd none some_, fun _ => shown.joined⟩

theorem view_ne_nil {item : SemanticItem} (plain : PlainItem item) : itemView item ≠ [] := by
  unfold itemView view
  rw [ne_eq, mapIdx_eq_nil_iff]
  exact plain.1

theorem text_ne_nil (represents : Represents value items) (plain : ∀ item ∈ items, PlainItem item)
    (some_ : items ≠ []) : value.text ≠ [] := by
  intro empty
  have joined := represents.joined some_
  have nothing : guardView value = [] := by
    unfold guardView view
    rw [empty]
    rfl
  rw [nothing] at joined
  cases items with
  | nil => exact some_ rfl
  | cons first rest =>
    rw [map_cons] at joined
    have nonempty := view_ne_nil (plain first (.head rest))
    generalize itemView first = view at joined nonempty
    generalize rest.map itemView = views at joined
    generalize whole : ([] : List (Char × Tri)) = text at joined
    cases joined with
    | single => exact nonempty whole.symm
    | cons _ g rest => exact absurd whole (by simp)

theorem fits_map {spans : List ProvenanceSpan} {n : ℕ} {h : ProvenanceSpan → ProvenanceSpan}
    (bounds : ∀ span, (h span).stop = span.stop) (fits : Fits spans n) : Fits (spans.map h) n := by
  intro span listed
  obtain ⟨inner, isInner, rfl⟩ := mem_map.mp listed
  rw [bounds]
  exact fits inner isInner

theorem append_represents (first : Represents existing items) (second : Represents appended more)
    (plain : ∀ item ∈ items ++ more, PlainItem item) :
    Represents (appendSerializedValue existing appended) (items ++ more) := by
  have plainFirst : ∀ item ∈ items, PlainItem item := fun i listed =>
    plain i (mem_append_left more listed)
  have plainSecond : ∀ item ∈ more, PlainItem item := fun i listed =>
    plain i (mem_append_right items listed)
  unfold appendSerializedValue
  split_ifs with noFirst noSecond
  · have none : items = [] := by
      by_contra some_
      exact text_ne_nil first plainFirst some_ noFirst
    rw [none, nil_append]
    exact ⟨second.fits, second.none, second.joined⟩
  · have none : more = [] := by
      by_contra some_
      exact text_ne_nil second plainSecond some_ noSecond
    rw [none, append_nil]
    exact ⟨first.fits, first.none, first.joined⟩
  · have someFirst : items ≠ [] := fun none => noFirst (first.none none)
    have someSecond : more ≠ [] := fun none => noSecond (second.none none)
    have unmarked : view (fun span => span.prov.guard) .isTrue appended.text
        (appended.spans.map (fun span => { span with literalReferences := false })) =
        guardView appended := by
      unfold guardView view attributeAt
      refine mapIdx_eq_mapIdx_iff.mpr (fun i _ => ?_)
      have kept := @spanAt_map appended.spans (fun span => { span with literalReferences := false })
        (fun _ => ⟨rfl, rfl⟩) i
      rw [kept, Option.map_map]
      rfl
    have shown := Shows.extend (fun _ _ => rfl) ⟨first.fits, first.joined someFirst⟩
      (by exact fits_map (fun _ => rfl) second.fits) (unmarked ▸ second.joined someSecond)
    refine ⟨shown.fits, fun none => absurd (append_eq_nil_iff.mp none).1 someFirst, fun _ => ?_⟩
    rw [map_append]
    exact shown.joined

end Represent

section Evaluated

variable {t : Token} {env : VarEnv} {call : Call} {items : List SemanticItem}

theorem mem_displayed {item : SemanticItem} (listed : item ∈ displayed t items) :
    ∃ inner ∈ items, ∃ text, item = { inner with display := text } := by
  unfold displayed at listed
  split at listed
  · split_ifs at listed <;> rw [mem_singleton.mp listed] <;>
      exact ⟨_, mem_singleton_self _, _, rfl⟩
  · exact ⟨item, listed, item.display, rfl⟩

theorem displayed_map {γ : Type} (f : SemanticItem → γ)
    (ignores : ∀ item text, f { item with display := text } = f item) :
    (displayed t items).map f = items.map f := by
  unfold displayed
  split
  · split_ifs <;> simp only [map_singleton, ignores]
  · rfl

theorem item_of_token (evaluated : semanticItemsFromToken t env call = .ok items)
    {item : SemanticItem} (listed : item ∈ items) : ∃ bytes piece,
      env.evaluateValue t call.prov = .ok bytes ∧ MadeOf item piece ∧
      (piece = bytes ∨ piece ∈ splitBytes bytes [] 0 0) := by
  unfold semanticItemsFromToken at evaluated
  cases value : env.evaluateValue t call.prov with
  | error issue => rw [value] at evaluated; cases evaluated
  | ok bytes =>
    rw [value] at evaluated
    cases evaluated
    obtain ⟨inner, isInner, text, rfl⟩ := mem_displayed listed
    unfold splitCMakeList at isInner
    split_ifs at isInner
    · rw [mem_singleton.mp isInner]
      exact ⟨bytes, bytes, rfl, ⟨rfl, rfl, rfl⟩, .inl rfl⟩
    · obtain ⟨piece, isPiece, rfl⟩ := mem_map.mp isInner
      exact ⟨bytes, piece, rfl, ⟨rfl, rfl, rfl⟩, .inr isPiece⟩

theorem mem_evaluateItems {tokens : List Token} {item : SemanticItem}
    (listed : item ∈ (evaluateItems env call tokens).1) :
    ∃ t ∈ tokens, ∃ items, semanticItemsFromToken t env call = .ok items ∧ item ∈ items := by
  induction tokens with
  | nil => cases listed
  | cons t rest ih =>
    rw [evaluateItems] at listed
    cases evaluated : semanticItemsFromToken t env call with
    | error issue =>
      rw [evaluated] at listed
      cases listed
    | ok items =>
      rw [evaluated] at listed
      rcases mem_append.mp listed with here | later
      · exact ⟨t, .head rest, items, evaluated, here⟩
      · obtain ⟨u, isU, found⟩ := ih later
        exact ⟨u, .tail t isU, found⟩

theorem evaluateItems_made (tokens : List Token) : Made (evaluateItems env call tokens).1 := by
  intro item listed
  obtain ⟨t, -, items, evaluated, isItem⟩ := mem_evaluateItems listed
  obtain ⟨-, piece, -, made, -⟩ := item_of_token evaluated isItem
  exact ⟨piece, made⟩

end Evaluated

/-- The token refers to no variable. -/
def LiteralToken (t : Token) : Prop := t.raw = true ∨ '$' ∉ (if t.quoted then t.text else t.listText)
  deriving Decidable

theorem bareBytes_prov (prov : ProvenanceMeta) (text : Text) :
    ∀ b ∈ bareBytes prov text, b.prov = prov := by
  fun_induction bareBytes prov text <;> simp_all

theorem literalBytes_prov (prov : ProvenanceMeta) (text : Text) :
    ∀ b ∈ literalBytes text prov, b.prov = prov := by
  intro b listed
  obtain ⟨c, -, rfl⟩ := mem_map.mp listed
  rfl

theorem emit_ok {found : List EvaluatedByte} {remaining left : ℕ}
    (emitted : emit bytes remaining = .ok (found, left)) : found = bytes := by
  unfold emit at emitted
  split_ifs at emitted
  exact (congrArg Prod.fst (Except.ok.inj emitted)).symm

theorem map_fst_ok {output : Output}
    (ok : Except.map Prod.fst output = .ok bytes) : ∃ left, output = .ok (bytes, left) := by
  cases output with
  | error issue => cases ok
  | ok found =>
    cases ok
    exact ⟨found.2, rfl⟩

theorem evaluate_literal {t : Token} {env : VarEnv} {prov : ProvenanceMeta}
    (literal : LiteralToken t)
    (evaluated : env.evaluateValue t prov = .ok bytes) : ∀ b ∈ bytes, b.prov = prov := by
  obtain ⟨left, output⟩ := map_fst_ok evaluated
  by_cases raw : t.raw = true
  · rw [if_pos raw] at output
    rw [emit_ok output]
    exact literalBytes_prov prov t.text
  · rw [if_neg raw] at output
    have plain := literal.resolve_left raw
    generalize (if t.quoted then t.text else t.listText) = source at output plain
    rw [appendSource_plain plain] at output
    rw [emit_ok output]
    split_ifs
    · exact bareBytes_prov prov source
    · exact literalBytes_prov prov source

theorem mem_splitBytes {current piece : List EvaluatedByte} {opens closes : ℕ} {b : EvaluatedByte}
    (isPiece : piece ∈ splitBytes bytes current opens closes) (listed : b ∈ piece) :
    b ∈ current ∨ b ∈ bytes := by
  have flushed {open_ : List EvaluatedByte} {later : List (List EvaluatedByte)}
      (isPiece : piece ∈ flush open_ later) : piece = open_ ∨ piece ∈ later := by
    unfold flush at isPiece
    split_ifs at isPiece
    · exact .inr isPiece
    · exact mem_cons.mp isPiece
  have moved {open_ rest : List EvaluatedByte} {first : EvaluatedByte}
      (found : b ∈ open_ ++ [first] ∨ b ∈ rest) : b ∈ open_ ∨ b ∈ first :: rest := by
    simp only [mem_append, mem_cons, not_mem_nil, or_false] at found ⊢
    tauto
  fun_induction splitBytes bytes current opens closes with
  | case1 current opens closes =>
    rcases flushed isPiece with rfl | none
    · exact .inl listed
    · cases none
  | case2 first rest current opens closes _ ih | case3 first rest current opens closes _ _ ih
  | case4 first rest current opens closes _ _ _ _ ih
  | case7 first rest current opens closes _ _ _ ih => exact moved (ih isPiece)
  | case5 first rest current opens closes _ _ _ _ _ ih =>
    exact (moved (ih isPiece)).imp_left (fun old => dropLast_subset current old)
  | case6 first rest current opens closes _ _ _ _ _ ih =>
    rcases flushed isPiece with rfl | later
    · exact .inl listed
    · exact .inr (.tail first ((ih later).resolve_left not_mem_nil))

theorem literal_item_guard {t : Token} {env : VarEnv} {call : Call} {items : List SemanticItem}
    {item : SemanticItem} (literal : LiteralToken t)
    (evaluated : semanticItemsFromToken t env call = .ok items) (listed : item ∈ items)
    (some_ : item.text ≠ []) : item.prov.guard = call.active := by
  obtain ⟨bytes, piece, value, made, isPiece⟩ := item_of_token evaluated listed
  have same : ∀ b ∈ piece, b.prov = call.prov := by
    intro b isByte
    refine evaluate_literal literal value b ?_
    rcases isPiece with rfl | isPiece
    · exact isByte
    · exact (mem_splitBytes isPiece isByte).resolve_left not_mem_nil
  rw [made.prov, guard_combine, map_map]
  refine allOf_constant ?_ (fun guard isGuard => ?_)
  · rw [ne_eq, map_eq_nil_iff]
    rintro rfl
    exact some_ made.text
  · obtain ⟨b, isByte, rfl⟩ := mem_map.mp isGuard
    rw [Function.comp_apply, same b isByte]
    rfl

section Read

variable {env : VarEnv} {name : Text} {value : SerializedValue} {items : List SemanticItem}

theorem rangeBytes_keyed (value : SerializedValue) (prov : ProvenanceMeta) :
    (rangeBytes value prov 0 value.text.length).map keyed =
      (guardView value).map (fun x => (x.1, kleeneAnd prov.guard x.2)) := by
  have guard (i : ℕ) : (serializedMetaAt value i).guard =
      attributeAt (fun span => span.prov.guard) .isTrue value.spans i := by
    unfold serializedMetaAt attributeAt
    cases spanAt value.spans i <;> rfl
  unfold rangeBytes guardView view
  rw [take_length, drop_zero]
  refine ext_getElem? (fun i => ?_)
  simp only [List.getElem?_map, List.getElem?_mapIdx, Option.map_map, Nat.zero_add, ← guard]
  rfl

theorem rangeBytes_unprotected (prov : ProvenanceMeta) (start stop : ℕ) :
    ∀ b ∈ rangeBytes value prov start stop, b.protectedSemicolon = false := by
  intro b listed
  obtain ⟨i, inside, rfl⟩ := mem_mapIdx.mp listed
  rfl

theorem rangeBytes_length (value : SerializedValue) (prov : ProvenanceMeta) :
    (rangeBytes value prov 0 value.text.length).length = value.text.length := by
  unfold rangeBytes
  rw [length_mapIdx, take_length, drop_zero]

theorem rangeBytes_empty (none : value.text = []) (prov : ProvenanceMeta) :
    rangeBytes value prov 0 value.text.length = [] :=
  eq_nil_of_length_eq_zero ((rangeBytes_length value prov).trans (congrArg List.length none))

theorem readValue_plain (resolved : value.resolution = none) (plain : '$' ∉ value.text)
    (prov : ProvenanceMeta) : readValue env name value prov =
      if value.text.length ≤ maxPortfileBytes then
        .ok (rangeBytes value (mergeProvenance prov certainProvenance .peer) 0 value.text.length)
      else .error .byteBudgetExceeded := by
  unfold readValue
  rw [resolved]
  by_cases some_ : value.text = []
  · rw [rangeBytes_empty some_, some_]
    rfl
  · have whole (first : Output) : first.andThen (appendSerializedResolved
        (appendValueReference env (maxVariableDereferenceDepth - 1)) value
        (mergeProvenance prov certainProvenance .peer) [name] []) = first := andThen_nil first
    rw [segments_plain plain some_, appendSerializedResolved, whole, emit, rangeBytes_length]
    split_ifs <;> rfl

theorem joined_text {γ : Type} {views : List (List (Char × γ))} {whole : List (Char × γ)}
    (joined : Joined views whole) :
    whole.map Prod.fst = [';'].intercalate (views.map (List.map Prod.fst)) := by
  induction joined with
  | single view => simp
  | cons view g rest ih =>
    rw [map_append, map_cons, ih, map_cons]
    cases rest <;> simp [List.intercalate, List.intersperse]

theorem represents_text (represents : Represents value items) :
    value.text = [';'].intercalate (items.map (fun item => item.text)) := by
  by_cases some_ : items = []
  · rw [represents.none some_, some_]
    rfl
  · have text := joined_text (represents.joined some_)
    rw [view_text, map_map] at text
    rw [text]
    congr 1
    refine map_congr_left (fun item listed => ?_)
    exact itemView_text item

theorem no_reference (represents : Represents value items)
    (plain : ∀ item ∈ items, PlainItem item) : '$' ∉ value.text := by
  intro listed
  by_cases some_ : items = []
  · rw [represents.none some_] at listed
    cases listed
  · have viewed : '$' ∈ (guardView value).map Prod.fst := by rwa [view_text]
    obtain ⟨x, isX, dollar⟩ := mem_map.mp viewed
    obtain separator | ⟨view, isView, found⟩ := (represents.joined some_).mem isX
    · rw [dollar] at separator
      exact absurd separator (by decide)
    · obtain ⟨item, isItem, rfl⟩ := mem_map.mp isView
      have inItem : '$' ∈ item.text := by
        rw [← itemView_text item, ← dollar]
        exact mem_map_of_mem found
      exact ((plain item isItem).2 '$' inItem).2.2.2.1 rfl

def summary (view : List (Char × Tri)) : Text × Tri := (view.map Prod.fst, allOf (view.map Prod.snd))

theorem summary_itemOf (piece : List EvaluatedByte) (literal : Bool) :
    ((itemOf piece literal).text, (itemOf piece literal).prov.guard) = summary (piece.map keyed) := by
  have made := itemOf_madeOf piece literal
  rw [summary, ← itemView_eq made, itemView_text, itemView_guard made]

theorem summary_read {item : SemanticItem} {bytes : List EvaluatedByte} (made : MadeOf item bytes)
    (some_ : item.text ≠ []) (guard : Tri) :
    summary ((itemView item).map (fun x => (x.1, kleeneAnd guard x.2))) =
      (item.text, kleeneAnd item.prov.guard guard) := by
  have nonempty : (itemView item).map Prod.snd ≠ [] := by
    intro none
    have noView := map_eq_nil_iff.mp none
    have text := itemView_text item
    rw [noView] at text
    exact some_ text.symm
  have texts : (Prod.fst ∘ fun x : Char × Tri => (x.1, kleeneAnd guard x.2)) = Prod.fst := rfl
  have guards : (Prod.snd ∘ fun x : Char × Tri => (x.1, kleeneAnd guard x.2)) =
      kleeneAnd guard ∘ Prod.snd := rfl
  rw [summary, map_map, map_map, texts, guards, ← map_map,
    allOf_map_kleeneAnd guard nonempty, itemView_text, itemView_guard made, kleeneAnd_comm]

theorem split_represented (represents : Represents value items) (made : Made items)
    (plain : ∀ item ∈ items, PlainItem item) (prov : ProvenanceMeta) :
    (splitBytes (rangeBytes value prov 0 value.text.length) [] 0 0).map (List.map keyed) =
      items.map (fun item => (itemView item).map (fun x => (x.1, kleeneAnd prov.guard x.2))) := by
  by_cases some_ : items = []
  · rw [rangeBytes_empty (represents.none some_), some_]
    rfl
  · have joined := (represents.joined some_).map (kleeneAnd prov.guard)
    rw [map_map] at joined
    refine splitBytes_joined joined (rangeBytes_keyed value prov)
      (rangeBytes_unprotected prov 0 value.text.length) (fun view listed => ?_)
    obtain ⟨item, isItem, rfl⟩ := mem_map.mp listed
    obtain ⟨bytes, madeItem⟩ := made item isItem
    have itemPlain := plain item isItem
    refine ⟨fun none => view_ne_nil itemPlain (map_eq_nil_iff.mp none), fun x isX => ?_⟩
    obtain ⟨y, isY, rfl⟩ := mem_map.mp isX
    refine itemPlain.2 y.1 ?_
    rw [← itemView_text]
    exact mem_map_of_mem isY

section

variable (referable : Referable name) (known : env.serializedFor name = some value)
  (resolved : value.resolution = none) (represents : Represents value items)

include referable known resolved represents

theorem read_items (made : Made items) (plain : ∀ item ∈ items, PlainItem item)
    (fits : ([';'].intercalate (items.map (fun item => item.text))).length ≤ maxPortfileBytes)
    (read : Call) : ∃ found, semanticItemsFromToken (referenceToken name) env read = .ok found ∧
      found.map (fun item => (item.text, item.prov.guard)) =
        items.map (fun item => (item.text, kleeneAnd item.prov.guard read.active)) := by
  have text := represents_text represents
  have noReference := no_reference represents plain
  have length : value.text.length ≤ maxPortfileBytes := by rwa [text]
  have guard : (mergeProvenance read.prov certainProvenance .peer).guard = read.active :=
    kleeneAnd_isTrue read.active
  have evaluated : semanticItemsFromToken (referenceToken name) env read = .ok (displayed
      (referenceToken name) ((splitBytes (rangeBytes value
        (mergeProvenance read.prov certainProvenance .peer) 0 value.text.length) [] 0 0).map
        (fun piece => itemOf piece false))) := by
    unfold semanticItemsFromToken
    rw [evaluate_reference referable read.prov known,
      readValue_plain resolved noReference read.prov, if_pos length]
    rfl
  refine ⟨_, evaluated, ?_⟩
  rw [displayed_map _ (fun _ _ => rfl), map_map]
  calc (splitBytes _ [] 0 0).map
        ((fun item : SemanticItem => (item.text, item.prov.guard)) ∘ fun piece => itemOf piece false)
      = ((splitBytes (rangeBytes value (mergeProvenance read.prov certainProvenance .peer) 0
          value.text.length) [] 0 0).map (List.map keyed)).map summary := by
        rw [map_map]
        exact map_congr_left (fun piece _ => summary_itemOf piece false)
    _ = items.map (fun item => (item.text, kleeneAnd item.prov.guard read.active)) := by
        rw [split_represented represents made plain, map_map, guard]
        refine map_congr_left (fun item listed => ?_)
        obtain ⟨bytes, madeItem⟩ := made item listed
        exact summary_read madeItem (plain item listed).1 read.active

end

end Read

structure Store where
  target : Token
  values : List Token
  call : Call

def word (text : String) : Token := { text := text.toList, listText := text.toList }

def Store.items (store : Store) (items : List SemanticItem) : List (SemanticItem × Tri) :=
  items.map (fun item => (item, store.call.active))

inductive Appends (name : Text) : VarEnv → List Store → List (SemanticItem × Tri) → VarEnv → Prop
  | nil (env : VarEnv) : Appends name env [] [] env
  | cons {env next after : VarEnv} {store : Store} {later : List Store} {items : List SemanticItem}
      {stored : List (SemanticItem × Tri)} (target : store.target.text = name)
      (evaluated : evaluateItems env store.call store.values = (items, none))
      (appended : handleListAppend (word "APPEND" :: store.target :: store.values) env store.call =
        some next)
      (rest : Appends name next later stored after) :
      Appends name env (store :: later) (store.items items ++ stored) after

def Store.setValues (store : Store) : List Token :=
  store.values.takeWhile (fun t => !endsSetValues t)

inductive Stores (name : Text) (env : VarEnv) (first : Store) (later : List Store) :
    List (SemanticItem × Tri) → VarEnv → Prop
  | set {after : VarEnv} {items : List SemanticItem} {stored : List (SemanticItem × Tri)}
      (target : first.target.text = name)
      (here : first.values.any (isWord "PARENT_SCOPE") = false)
      (active : first.call.active ≠ .isFalse)
      (evaluated : evaluateItems env first.call first.setValues = (items, none))
      (appends : Appends name (handleSet (first.target :: first.values) env first.call) later stored
        after) : Stores name env first later (first.items items ++ stored) after

structure HasList (env : VarEnv) (name : Text) (items : List SemanticItem) : Prop where
  made : Made items
  value : ∃ value, env.values.lookup name = some value ∧ value.resolution = none ∧
    Represents value items

section Storing

variable {name : Text} {env after : VarEnv} {first store : Store} {later : List Store}
  {items more : List SemanticItem} {stored : List (SemanticItem × Tri)}

theorem map_fst_items (store : Store) (items : List SemanticItem) :
    (store.items items).map Prod.fst = items := by
  rw [Store.items, map_map]
  exact map_id' items

theorem serializedFor_free (free : ¬ Builtin name) :
    env.serializedFor name = env.values.lookup name := by
  unfold VarEnv.serializedFor
  rw [if_neg (fun port => free (.inl port)), if_neg (fun dir => free (.inr dir))]

theorem handleSet_lookup (referable : Referable store.target.text)
    (here : store.values.any (isWord "PARENT_SCOPE") = false)
    (active : store.call.active ≠ .isFalse) :
    (handleSet (store.target :: store.values) env store.call).values.lookup store.target.text =
      some (storedValue env store.call store.setValues) := by
  rw [handleSet, if_neg referable.some_, if_neg (by rw [here]; exact Bool.false_ne_true)]
  rw [if_neg active]
  exact AList.lookup_insert _

theorem hasList_set (referable : Referable name) (target : first.target.text = name)
    (here : first.values.any (isWord "PARENT_SCOPE") = false)
    (active : first.call.active ≠ .isFalse)
    (evaluated : evaluateItems env first.call first.setValues = (items, none)) :
    HasList (handleSet (first.target :: first.values) env first.call) name items := by
  have made := @evaluateItems_made env first.call first.setValues
  rw [evaluated] at made
  subst target
  refine ⟨made, storedValue env first.call first.setValues, handleSet_lookup referable here active,
    ?_, ?_⟩
  · rw [storedValue, evaluated]
  · rw [storedValue, evaluated]
    exact serializeItems_represents made none

theorem handleListAppend_word (target : Token) (values : List Token) (env : VarEnv) (call : Call) :
    handleListAppend (word "APPEND" :: target :: values) env call =
      some (env.setValue target.text (appendSerializedValue
        ((env.values.lookup target.text).getD {}) (storedValue env call values))) := by
  rw [handleListAppend, if_neg (by decide), if_neg (by decide)]

theorem hasList_append (has : HasList env name items) (target : store.target.text = name)
    (evaluated : evaluateItems env store.call store.values = (more, none))
    (appended : handleListAppend (word "APPEND" :: store.target :: store.values) env store.call =
      some after)
    (plain : ∀ item ∈ items ++ more, PlainItem item) : HasList after name (items ++ more) := by
  have madeMore := @evaluateItems_made env store.call store.values
  rw [evaluated] at madeMore
  obtain ⟨value, known, resolved, represents⟩ := has.value
  have next : after = env.setValue name (appendSerializedValue value
      { serializeItems more with resolution := none }) := by
    rw [handleListAppend_word, target, known, storedValue, evaluated] at appended
    exact (Option.some.inj appended).symm
  refine ⟨?_, appendSerializedValue value { serializeItems more with resolution := none }, ?_, ?_, ?_⟩
  · intro item listed
    rcases mem_append.mp listed with old | new
    · exact has.made item old
    · exact madeMore item new
  · rw [next]
    exact AList.lookup_insert _
  · unfold appendSerializedValue
    rw [resolved]
    split_ifs <;> rfl
  · exact append_represents represents (serializeItems_represents madeMore none) plain

theorem hasList_appends (appends : Appends name env later stored after)
    (has : HasList env name items) (plain : ∀ item ∈ items ++ stored.map Prod.fst, PlainItem item) :
    HasList after name (items ++ stored.map Prod.fst) := by
  induction appends generalizing items with
  | nil env => rwa [map_nil, append_nil]
  | @cons env next after store later more stored target evaluated appended rest ih =>
    rw [map_append, map_fst_items, ← append_assoc] at plain ⊢
    refine ih (hasList_append has target evaluated appended (fun item listed => ?_)) plain
    exact plain item (mem_append_left _ listed)

theorem items_guard {tokens : List Token}
    (evaluated : evaluateItems env store.call tokens = (items, none))
    (literal : ∀ t ∈ tokens, LiteralToken t) (plain : ∀ x ∈ store.items items, PlainItem x.1) :
    ∀ x ∈ store.items items, x.1.prov.guard = x.2 := by
  intro x listed
  have some_ := (plain x listed).1
  obtain ⟨item, isItem, rfl⟩ := mem_map.mp listed
  have itemOfCall : item ∈ (evaluateItems env store.call tokens).1 := by
    rw [evaluated]
    exact isItem
  obtain ⟨t, isToken, items, fromToken, found⟩ := mem_evaluateItems itemOfCall
  exact literal_item_guard (literal t isToken) fromToken found some_

theorem appends_guard (appends : Appends name env later stored after)
    (literal : ∀ store ∈ later, ∀ t ∈ store.values, LiteralToken t)
    (plain : ∀ x ∈ stored, PlainItem x.1) : ∀ x ∈ stored, x.1.prov.guard = x.2 := by
  induction appends with
  | nil env => exact nofun
  | @cons env next after store later more stored target evaluated appended rest ih =>
    intro x listed
    rcases mem_append.mp listed with here | behind
    · exact items_guard evaluated (literal store (.head later))
        (fun y isY => plain y (mem_append_left _ isY)) x here
    · exact ih (fun s isStore => literal s (.tail store isStore))
        (fun y isY => plain y (mem_append_right _ isY)) x behind

/-- A list that is stored by `set` and `list(APPEND)` is read back: the same texts in order, each
under the guard it was stored with and that of the reading call. -/
theorem list_round_trip (referable : Referable name) (free : ¬ Builtin name)
    (stores : Stores name env first later stored after) (plain : ∀ x ∈ stored, PlainItem x.1)
    (fits : ([';'].intercalate (stored.map (fun x => x.1.text))).length ≤ maxPortfileBytes)
    (read : Call) :
    (∃ found, semanticItemsFromToken (referenceToken name) after read = .ok found ∧
      found.map (fun item => (item.text, item.prov.guard)) =
        stored.map (fun x => (x.1.text, kleeneAnd x.1.prov.guard read.active))) ∧
      ((∀ store ∈ first :: later, ∀ t ∈ store.values, LiteralToken t) →
        ∀ x ∈ stored, x.1.prov.guard = x.2) := by
  obtain @⟨after, items, stored, target, here, active, evaluated, appends⟩ := stores
  have listed : (first.items items ++ stored).map Prod.fst = items ++ stored.map Prod.fst := by
    rw [map_append, map_fst_items]
  have plainItems : ∀ item ∈ items ++ stored.map Prod.fst, PlainItem item := by
    rw [← listed]
    intro item isItem
    obtain ⟨x, isX, rfl⟩ := mem_map.mp isItem
    exact plain x isX
  obtain ⟨made, value, known, resolved, represents⟩ :=
    hasList_appends appends (hasList_set referable target here active evaluated) plainItems
  have serialized : after.serializedFor name = some value := (serializedFor_free free).trans known
  constructor
  · have fits' : ([';'].intercalate ((items ++ stored.map Prod.fst).map
        (fun item => item.text))).length ≤ maxPortfileBytes := by
      rwa [← listed, map_map]
    obtain ⟨found, evaluated, same⟩ :=
      read_items referable serialized resolved represents made plainItems fits' read
    refine ⟨found, evaluated, ?_⟩
    rw [same, ← listed, map_map]
    rfl
  · intro literal x isX
    rcases mem_append.mp isX with here | behind
    · refine items_guard evaluated (fun t isToken => literal first (.head later) t ?_)
        (fun y isY => plain y (mem_append_left _ isY)) x here
      exact takeWhile_subset _ isToken
    · exact appends_guard appends (fun s isStore => literal s (.tail first isStore))
        (fun y isY => plain y (mem_append_right _ isY)) x behind

end Storing

def freshEnv : VarEnv := newVarEnv [] "zlib".toList [] [] []

def setLetters (name : String) : Store := ⟨word name, [word "a", word "b"], ⟨.isTrue, [], []⟩⟩

def appendLetter : Store := ⟨word "L", [word "c"], ⟨.unknown, "X".toList, ["X".toList]⟩⟩

def setItems (name : String) : List SemanticItem :=
  (evaluateItems freshEnv (setLetters name).call (setLetters name).setValues).1

def afterSet (name : String) : VarEnv :=
  handleSet ((setLetters name).target :: (setLetters name).values) freshEnv (setLetters name).call

theorem setLetters_stores : Stores "PORT".toList freshEnv (setLetters "PORT") []
    ((setLetters "PORT").items (setItems "PORT") ++ []) (afterSet "PORT") :=
  .set rfl (by decide +kernel) (by decide) (Prod.ext rfl (by decide +kernel)) (.nil _)

def appendItems : List SemanticItem :=
  (evaluateItems (afterSet "L") appendLetter.call appendLetter.values).1

def afterAppend : VarEnv :=
  (afterSet "L").setValue appendLetter.target.text (appendSerializedValue
    (((afterSet "L").values.lookup appendLetter.target.text).getD {})
    (storedValue (afterSet "L") appendLetter.call appendLetter.values))

theorem appendLetter_stores : Stores "L".toList freshEnv (setLetters "L") [appendLetter]
    ((setLetters "L").items (setItems "L") ++ (appendLetter.items appendItems ++ [])) afterAppend :=
  .set rfl (by decide +kernel) (by decide) (Prod.ext rfl (by decide +kernel))
    (.cons rfl (Prod.ext rfl (by decide +kernel)) (handleListAppend_word _ _ _ _) (.nil _))

theorem list_round_trip_letters :
    ∃ found, semanticItemsFromToken (referenceToken "L".toList) afterAppend ⟨.isTrue, [], []⟩ =
        .ok found ∧
      found.map (fun item => (item.text, item.prov.guard)) =
        [(['a'], .isTrue), (['b'], .isTrue), (['c'], .unknown)] := by
  obtain ⟨⟨found, evaluated, same⟩, -⟩ := list_round_trip (by decide +kernel) (by decide +kernel)
    appendLetter_stores (by decide +kernel) (by decide +kernel) ⟨.isTrue, [], []⟩
  refine ⟨found, evaluated, ?_⟩
  rw [same]
  decide +kernel

/-- `set(PORT a b)` stores a list, and `${PORT}` is the name of the port. -/
theorem builtin_hides_list : Stores "PORT".toList freshEnv (setLetters "PORT") []
        ((setLetters "PORT").items (setItems "PORT") ++ []) (afterSet "PORT") ∧
      (setItems "PORT").map (fun item => item.text) = [['a'], ['b']] ∧
      Except.map (List.map (fun item : SemanticItem => item.text))
        (semanticItemsFromToken (referenceToken "PORT".toList) (afterSet "PORT") ⟨.isTrue, [], []⟩) =
        .ok ["zlib".toList] :=
  ⟨setLetters_stores, by decide +kernel, by decide +kernel⟩

end McpLocalHub.PatchesApply.ListRoundTrip
