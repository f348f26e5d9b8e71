/- Module: PatchesApply/ValueBytes
   source: internal/vcpkgmcp/patchesapply/varenv.go
   digest: What stands at each byte of a value that is put together from items. -/

import McpLocalHub.PatchesApply.Assignments

set_option autoImplicit false

namespace McpLocalHub.PatchesApply.ValueBytes

open CMakeGraph.Lexer (Text)
open Foundation.Kleene Lexer Values List

def Fits (spans : List ProvenanceSpan) (length : ℕ) : Prop := ∀ span ∈ spans, span.stop ≤ length

section Spans

variable {spans more : List ProvenanceSpan} {n i : ℕ}

theorem spanAt_shift (spans : List ProvenanceSpan) (n i : ℕ) :
    spanAt (spans.map (ProvenanceSpan.shift n)) (n + i) =
      (spanAt spans i).map (ProvenanceSpan.shift n) := by
  unfold spanAt
  rw [List.find?_map]
  congr 2
  funext span
  simp [ProvenanceSpan.shift]

theorem spanAt_shift_before (before : i < n) :
    spanAt (spans.map (ProvenanceSpan.shift n)) i = none := by
  unfold spanAt
  rw [List.find?_eq_none]
  intro span listed
  obtain ⟨inner, -, rfl⟩ := mem_map.mp listed
  intro contains
  have both := of_decide_eq_true contains
  simp only [ProvenanceSpan.shift] at both
  omega

theorem spanAt_none (fits : Fits spans n) (behind : n ≤ i) : spanAt spans i = none := by
  unfold spanAt
  rw [List.find?_eq_none]
  intro span listed
  have bound := fits span listed
  simp only [decide_eq_true_eq]
  omega

theorem spanAt_append (i : ℕ) : spanAt (spans ++ more) i = (spanAt spans i).or (spanAt more i) := by
  unfold spanAt
  rw [List.find?_append]

end Spans

section Extend

variable {value : SerializedValue} {text : Text} {spans : List ProvenanceSpan} {i : ℕ}

theorem spanAt_extend_before (inside : i < value.text.length) :
    spanAt (value.extend text spans).spans i = spanAt value.spans i := by
  unfold SerializedValue.extend
  rw [spanAt_append, spanAt_shift_before inside, Option.or_none]

theorem spanAt_extend_behind (fits : Fits value.spans value.text.length) :
    spanAt (value.extend text spans).spans (value.text.length + i) =
      (spanAt spans i).map (ProvenanceSpan.shift value.text.length) := by
  unfold SerializedValue.extend
  rw [spanAt_append, spanAt_none fits (Nat.le_add_right _ _), Option.none_or, spanAt_shift]

theorem fits_extend (fits : Fits value.spans value.text.length)
    (fitsMore : Fits spans text.length) :
    Fits (value.extend text spans).spans (value.extend text spans).text.length := by
  unfold SerializedValue.extend
  intro span listed
  rw [length_append]
  rcases mem_append.mp listed with old | new
  · have bound := fits span old
    omega
  · obtain ⟨inner, isInner, rfl⟩ := mem_map.mp new
    have bound := fitsMore inner isInner
    simp only [ProvenanceSpan.shift]
    omega

end Extend

theorem guard_of_sameProvenance {a b : ProvenanceMeta} (same : sameProvenance a b = true) :
    a.guard = b.guard := by
  unfold sameProvenance at same
  simp only [Bool.and_eq_true, decide_eq_true_eq] at same
  exact same.1.1.1.2

theorem guard_index (m : ProvenanceMeta) (rest : List ProvenanceMeta) {i j : ℕ} (behind : i ≤ j) :
    ((m :: rest).getD (j - i) {}).guard =
      if j < i + 1 then m.guard else (rest.getD (j - (i + 1)) {}).guard := by
  by_cases here : j = i
  · subst here
    rw [if_pos (Nat.lt_succ_self j), Nat.sub_self]
    rfl
  · have later : j - i = (j - (i + 1)) + 1 := by omega
    rw [if_neg (by omega), later, getD_cons_succ]

theorem spansFrom_at (metas : List ProvenanceMeta) (i start : ℕ) (first : ProvenanceMeta)
    (opened : start < i) {j : ℕ} (from_ : start ≤ j) (inside : j < i + metas.length) :
    ∃ span, spanAt (spansFrom metas i start first) j = some span ∧
      span.prov.guard = if j < i then first.guard else (metas.getD (j - i) {}).guard := by
  induction metas generalizing i start first with
  | nil =>
    have below : j < i := inside
    refine ⟨⟨start, i, first, false⟩, ?_, by rw [if_pos below]⟩
    simp [spansFrom, spanAt, from_, below]
  | cons m rest ih =>
    rw [length_cons] at inside
    by_cases same : sameProvenance first m = true
    · obtain ⟨span, found, guard⟩ := ih (i + 1) start first (by omega) from_ (by omega)
      refine ⟨span, by rw [spansFrom, if_pos same]; exact found, ?_⟩
      rw [guard]
      by_cases below : j < i
      · rw [if_pos below, if_pos (by omega)]
      · rw [if_neg below, guard_index m rest (by omega), guard_of_sameProvenance same]
    · rw [spansFrom, if_neg same]
      by_cases below : j < i
      · refine ⟨⟨start, i, first, false⟩, ?_, by rw [if_pos below]⟩
        simp [spanAt, from_, below]
      · obtain ⟨span, found, guard⟩ := ih (i + 1) i m (Nat.lt_succ_self i) (by omega) (by omega)
        refine ⟨span, ?_, by rw [guard, if_neg below, guard_index m rest (by omega)]⟩
        unfold spanAt at found ⊢
        rw [List.find?_cons_of_neg (by simp; omega)]
        exact found

theorem spansFrom_fits (metas : List ProvenanceMeta) {i start : ℕ} {first : ProvenanceMeta} :
    Fits (spansFrom metas i start first) (i + metas.length) := by
  induction metas generalizing i start first with
  | nil =>
    intro span listed
    rw [mem_singleton.mp listed]
    exact Nat.le_refl _
  | cons m rest ih =>
    intro span listed
    rw [spansFrom] at listed
    rw [length_cons]
    split_ifs at listed
    · have bound := ih span listed
      omega
    · rcases mem_cons.mp listed with rfl | listed
      · dsimp only
        omega
      · have bound := ih span listed
        omega

section View

variable {γ : Type} (f : ProvenanceSpan → γ) (absent : γ)

def attributeAt (spans : List ProvenanceSpan) (i : ℕ) : γ := ((spanAt spans i).map f).getD absent

def view (text : Text) (spans : List ProvenanceSpan) : List (Char × γ) :=
  text.mapIdx (fun i c => (c, attributeAt f absent spans i))

theorem view_extend (shifts : ∀ n span, f (ProvenanceSpan.shift n span) = f span)
    {value : SerializedValue} (fits : Fits value.spans value.text.length) (text : Text)
    (spans : List ProvenanceSpan) :
    view f absent (value.extend text spans).text (value.extend text spans).spans =
      view f absent value.text value.spans ++ view f absent text spans := by
  have texts : (value.extend text spans).text = value.text ++ text := rfl
  unfold view
  rw [texts, mapIdx_append]
  congr 1
  · refine mapIdx_eq_mapIdx_iff.mpr (fun i inside => ?_)
    unfold attributeAt
    rw [spanAt_extend_before inside]
  · refine mapIdx_eq_mapIdx_iff.mpr (fun i inside => ?_)
    unfold attributeAt
    rw [Nat.add_comm, spanAt_extend_behind fits, Option.map_map]
    congr 3
    funext span
    exact shifts _ span

end View

variable {γ : Type} {views : List (List (Char × γ))} {whole : List (Char × γ)}

theorem view_text (f : ProvenanceSpan → γ) (absent : γ) (text : Text)
    (spans : List ProvenanceSpan) : (view f absent text spans).map Prod.fst = text := by
  unfold view
  refine ext_getElem? (fun i => ?_)
  rw [List.getElem?_map, List.getElem?_mapIdx, Option.map_map]
  exact Option.map_id'

inductive Joined {γ : Type} : List (List (Char × γ)) → List (Char × γ) → Prop
  | single (view : List (Char × γ)) : Joined [view] view
  | cons (view : List (Char × γ)) (g : γ) {views : List (List (Char × γ))}
      {whole : List (Char × γ)} (rest : Joined views whole) :
      Joined (view :: views) (view ++ (';', g) :: whole)

theorem Joined.append {views' : List (List (Char × γ))}
    {whole' : List (Char × γ)} (first : Joined views whole) (g : γ)
    (second : Joined views' whole') : Joined (views ++ views') (whole ++ (';', g) :: whole') := by
  induction first with
  | single view => exact .cons view g second
  | cons view h rest ih =>
    rw [cons_append, append_assoc, cons_append]
    exact .cons view h ih

theorem Joined.map {δ : Type} (h : γ → δ) (joined : Joined views whole) :
    Joined (views.map (List.map (fun x => (x.1, h x.2)))) (whole.map (fun x => (x.1, h x.2))) := by
  induction joined with
  | single view => exact .single _
  | cons view g rest ih =>
    rw [map_cons, map_append, map_cons]
    exact .cons _ _ ih

theorem Joined.mem (joined : Joined views whole) {x : Char × γ} (listed : x ∈ whole) :
    x.1 = ';' ∨ ∃ view ∈ views, x ∈ view := by
  induction joined with
  | single view => exact .inr ⟨view, .head [], listed⟩
  | cons view g rest ih =>
    rcases mem_append.mp listed with here | behind
    · exact .inr ⟨view, .head _, here⟩
    · rcases mem_cons.mp behind with rfl | later
      · exact .inl rfl
      · obtain separator | ⟨other, isOther, found⟩ := ih later
        · exact .inl separator
        · exact .inr ⟨other, .tail _ isOther, found⟩

structure MadeOf (item : SemanticItem) (bytes : List EvaluatedByte) : Prop where
  text : item.text = bytes.map (fun b => b.byte)
  prov : item.prov = combineItemProvenance (bytes.map (fun b => b.prov))
  spans : item.spans = spansFromMetas (bytes.map (fun b => b.prov))

theorem itemOf_madeOf (bytes : List EvaluatedByte) (literal : Bool) :
    MadeOf (itemOf bytes literal) bytes := ⟨rfl, rfl, rfl⟩

section Item

variable {item : SemanticItem} {bytes : List EvaluatedByte}

theorem MadeOf.length (made : MadeOf item bytes) : item.text.length = bytes.length := by
  rw [made.text, length_map]

theorem spansFromMetas_fits
    (metas : List ProvenanceMeta) : Fits (spansFromMetas metas) metas.length := by
  cases metas with
  | nil => exact nofun
  | cons m rest =>
    have fits := @spansFrom_fits rest 1 0 m
    rw [length_cons, Nat.add_comm]
    exact fits

theorem itemSpans_eq (made : MadeOf item bytes) : itemSpans item =
    (spansFromMetas (bytes.map (fun b => b.prov))).map (ownSpan item) := by
  have covered : ¬ (item.spans = [] ∧ item.text ≠ []) := by
    rintro ⟨none, some_⟩
    rw [made.spans] at none
    rw [made.text] at some_
    cases bytes with
    | nil => exact some_ rfl
    | cons b rest =>
      have found := spansFrom_at (rest.map (fun b => b.prov)) 1 0 b.prov Nat.zero_lt_one
        (Nat.zero_le 0) (Nat.lt_of_lt_of_le Nat.zero_lt_one (Nat.le_add_right _ _))
      rw [map_cons, spansFromMetas] at none
      rw [none] at found
      obtain ⟨span, absent, -⟩ := found
      cases absent
  unfold itemSpans
  rw [if_neg covered, made.spans]

theorem itemSpans_fits (made : MadeOf item bytes) : Fits (itemSpans item) item.text.length := by
  rw [itemSpans_eq made, made.length]
  intro span listed
  obtain ⟨inner, isInner, rfl⟩ := mem_map.mp listed
  have fits := spansFromMetas_fits (bytes.map (fun b => b.prov)) inner isInner
  rwa [length_map] at fits

theorem spanAt_map {spans : List ProvenanceSpan} {h : ProvenanceSpan → ProvenanceSpan}
    (bounds : ∀ span, (h span).start = span.start ∧ (h span).stop = span.stop) (i : ℕ) :
    spanAt (spans.map h) i = (spanAt spans i).map h := by
  unfold spanAt
  rw [List.find?_map]
  congr 2
  funext span
  simp [bounds]

theorem itemSpans_at (made : MadeOf item bytes) {i : ℕ} {b : EvaluatedByte}
    (here : bytes[i]? = some b) : ∃ span, spanAt (itemSpans item) i = some span ∧
      span.prov.guard = b.prov.guard ∧ span.literalReferences = item.literalReferences := by
  obtain ⟨inside, rfl⟩ := List.getElem?_eq_some_iff.mp here
  cases bytes with
  | nil => exact absurd inside (Nat.not_lt_zero i)
  | cons first rest =>
    have length : i < 1 + (rest.map (fun b => b.prov)).length := by
      rw [length_map]
      rw [length_cons] at inside
      omega
    obtain ⟨span, found, guard⟩ := spansFrom_at (rest.map (fun b => b.prov)) 1 0 first.prov
      Nat.zero_lt_one (Nat.zero_le i) length
    have bounds (span : ProvenanceSpan) : (ownSpan item span).start = span.start ∧
        (ownSpan item span).stop = span.stop := ⟨rfl, rfl⟩
    rw [itemSpans_eq made, spanAt_map bounds, map_cons, spansFromMetas, found]
    refine ⟨ownSpan item span, rfl, ?_, rfl⟩
    have kept : (ownSpan item span).prov.guard = span.prov.guard := by
      unfold ownSpan
      split_ifs <;> rfl
    rw [kept, guard]
    cases i with
    | zero => rfl
    | succ i =>
      have inside' : i < rest.length := Nat.lt_of_succ_lt_succ inside
      simp [inside']

theorem view_item {γ : Type} (f : ProvenanceSpan → γ) (absent : γ) (made : MadeOf item bytes)
    {own : EvaluatedByte → γ} (agrees : ∀ b ∈ bytes, ∀ span : ProvenanceSpan,
      span.prov.guard = b.prov.guard → span.literalReferences = item.literalReferences →
      f span = own b) :
    view f absent item.text (itemSpans item) = bytes.map (fun b => (b.byte, own b)) := by
  unfold view
  rw [made.text]
  refine ext_getElem? (fun i => ?_)
  simp only [List.getElem?_mapIdx, List.getElem?_map, Option.map_map]
  cases here : bytes[i]? with
  | none => rfl
  | some b =>
    obtain ⟨span, found, guard, literal⟩ := itemSpans_at made here
    have listed : b ∈ bytes := mem_of_getElem? here
    simp only [Option.map_some, Function.comp_apply, attributeAt, found, Option.getD_some,
      agrees b listed span guard literal]

end Item

abbrev guardView (value : SerializedValue) : List (Char × Tri) :=
  view (fun span => span.prov.guard) .isTrue value.text value.spans

abbrev literalView (value : SerializedValue) : List (Char × Bool) :=
  view (fun span => span.literalReferences) false value.text value.spans

structure Shows {γ : Type} (f : ProvenanceSpan → γ) (absent : γ) (value : SerializedValue)
    (views : List (List (Char × γ))) : Prop where
  fits : Fits value.spans value.text.length
  joined : Joined views (view f absent value.text value.spans)

section Serialise

variable {f : ProvenanceSpan → γ} {absent : γ} {value : SerializedValue}

theorem fits_separated (fits : Fits value.spans value.text.length) :
    Fits (pushSeparator value).spans (pushSeparator value).text.length := by
  refine fits_extend fits (fun span listed => ?_)
  rw [mem_singleton.mp listed]
  exact Nat.le_refl 1

variable (shifts : ∀ n span, f (ProvenanceSpan.shift n span) = f span)
include shifts

theorem Shows.extend (shown : Shows f absent value views) {text : Text}
    {spans : List ProvenanceSpan} {more : List (List (Char × γ))} (fits : Fits spans text.length)
    (joined : Joined more (view f absent text spans)) :
    Shows f absent ((pushSeparator value).extend text spans) (views ++ more) := by
  have separated := fits_separated shown.fits
  refine ⟨fits_extend separated fits, ?_⟩
  rw [view_extend f absent shifts separated]
  unfold pushSeparator
  rw [view_extend f absent shifts shown.fits, append_assoc]
  exact shown.joined.append _ joined

theorem Shows.foldl (shown : Shows f absent value views) {later : List SemanticItem}
    (made : ∀ item ∈ later, ∃ bytes, MadeOf item bytes) :
    Shows f absent (later.foldl (fun value item => pushItem (pushSeparator value) item) value)
      (views ++ later.map (fun item => view f absent item.text (itemSpans item))) := by
  induction later generalizing value views with
  | nil => rwa [map_nil, append_nil]
  | cons item later ih =>
    obtain ⟨bytes, madeItem⟩ := made item (.head later)
    have done := ih (shown.extend shifts (itemSpans_fits madeItem) (.single _))
      (fun i listed => made i (.tail item listed))
    rw [append_assoc] at done
    exact done

theorem serializeItems_shows {items : List SemanticItem}
    (made : ∀ item ∈ items, ∃ bytes, MadeOf item bytes) (some_ : items ≠ []) :
    Shows f absent (serializeItems items)
      (items.map (fun item => view f absent item.text (itemSpans item))) := by
  cases items with
  | nil => exact absurd rfl some_
  | cons first rest =>
    have noSpans : Fits ({} : SerializedValue).spans ({} : SerializedValue).text.length := nofun
    obtain ⟨bytes, madeFirst⟩ := made first (.head rest)
    have start : Shows f absent (pushItem {} first) [view f absent first.text (itemSpans first)] := by
      refine ⟨fits_extend noSpans (itemSpans_fits madeFirst), ?_⟩
      unfold pushItem
      rw [view_extend f absent shifts noSpans]
      exact .single _
    exact start.foldl shifts (fun i listed => made i (.tail first listed))

end Serialise

end McpLocalHub.PatchesApply.ValueBytes
