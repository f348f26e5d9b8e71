/- Module: Clients/LayerMerge
   source: internal/clients/mimocode.go
   digest: The merge of configuration layers, and when an entry that nothing shadows survives it.
   -/

import Mathlib.Tactic.ByContra
import Mathlib.Tactic.SplitIfs

set_option autoImplicit false

namespace McpLocalHub.Clients.LayerMerge

/-- What a Go map of parsed JSON gives for a key: nothing, an object, a Boolean, or another value by
its text. -/
inductive Value where
  | absent
  | object (fields : String → Value)
  | bool (b : Bool)
  | raw (text : String)

/-- A `map[string]any`. A loop over one touches the same key of the other map only, so its order
does not matter. -/
abbrev Fields := String → Value

def Value.isAbsent : Value → Bool
  | .absent => true
  | _ => false

def mimoCodeMCPKey : String := "mcp"

def mimoCodeIsEnabledOnlyOverride (entry : Fields) : Bool :=
  match entry "enabled" with
  | .bool _ => (entry "type").isAbsent && (entry "command").isAbsent && (entry "url").isAbsent
  | _ => false

def overlay (lower higher : Fields) : Fields := fun k =>
  match higher k with
  | .absent => lower k
  | v => v

def mimoCodeMergeMCPEntry (lower higher : Value) : Value :=
  match higher, lower with
  | .object higherMap, .object lowerMap =>
    if mimoCodeIsEnabledOnlyOverride higherMap then .object (overlay lowerMap higherMap)
    else .object higherMap
  | higher, _ => higher

def mergeServers (dst src : Fields) : Fields := fun name =>
  match src name with
  | .absent => dst name
  | entry => mimoCodeMergeMCPEntry (dst name) entry

/-- One turn of the loop of `mimoCodeDeepMerge`: the value of a key, from the values in the two
maps. -/
def mergeKey (k : String) (dv : Value) : Value → Value
  | .absent => dv
  | .object svMap =>
    match dv with
    | .object dvMap =>
      if k = mimoCodeMCPKey then .object (mergeServers dvMap svMap)
      else .object (fun key => mergeKey key (dvMap key) (svMap key))
    | _ => .object svMap
  | sv => sv

def mimoCodeDeepMerge (dst src : Fields) : Fields := fun k => mergeKey k (dst k) (src k)

def mimoCodeValueShadowsWriteTarget : Value → Bool
  | .object entry =>
    if mimoCodeIsEnabledOnlyOverride entry then
      match entry "enabled" with
      | .bool enabled => !enabled
      | _ => true
    else true
  | _ => true

def mimoCodeMapShadows (m : Fields) (name : String) : Bool :=
  match m mimoCodeMCPKey with
  | .object servers =>
    match servers name with
    | .absent => false
    | value => mimoCodeValueShadowsWriteTarget value
  | _ => false

def serverEntry (m : Fields) (name : String) : Value :=
  match m mimoCodeMCPKey with
  | .object servers => servers name
  | _ => .absent

def Disabled (entry : Fields) : Prop := entry "enabled" = .bool false

/-- An entry with content of its own that is not disabled. -/
def Full (entry : Fields) : Prop :=
  (entry "type" ≠ .absent ∨ entry "command" ≠ .absent ∨ entry "url" ≠ .absent) ∧ ¬Disabled entry

structure SameServer (entry merged : Fields) : Prop where
  type : merged "type" = entry "type"
  command : merged "command" = entry "command"
  url : merged "url" = entry "url"
  active : ¬Disabled merged

/-- The layer has no `mcp` section, or an object. -/
def SectionIsObject (layer : Fields) : Prop :=
  layer mimoCodeMCPKey = .absent ∨ ∃ servers, layer mimoCodeMCPKey = .object servers

variable {base layer entry merged higher : Fields} {name : String} {layers : List Fields}

theorem overlay_of_isAbsent {k : String} (lower : Fields) (absent : (higher k).isAbsent = true) :
    overlay lower higher k = lower k := by
  unfold overlay
  cases value : higher k with
  | absent => rfl
  | object | bool | raw =>
    rw [value] at absent
    cases absent

theorem overlay_sameServer (same : SameServer entry merged)
    (unshadowed : mimoCodeValueShadowsWriteTarget (.object higher) = false) :
    mimoCodeIsEnabledOnlyOverride higher = true ∧ SameServer entry (overlay merged higher) := by
  unfold mimoCodeValueShadowsWriteTarget at unshadowed
  dsimp only at unshadowed
  split_ifs at unshadowed with enabledOnly
  refine ⟨enabledOnly, ?_⟩
  unfold mimoCodeIsEnabledOnlyOverride at enabledOnly
  cases flag : higher "enabled" with
  | absent | object | raw =>
    rw [flag] at enabledOnly
    cases enabledOnly
  | bool enabled =>
    simp only [flag, Bool.and_eq_true] at enabledOnly
    obtain ⟨⟨noType, noCommand⟩, noUrl⟩ := enabledOnly
    have on : enabled = true := by simpa [flag] using unshadowed
    refine ⟨?_, ?_, ?_, ?_⟩
    · rw [overlay_of_isAbsent merged noType, same.type]
    · rw [overlay_of_isAbsent merged noCommand, same.command]
    · rw [overlay_of_isAbsent merged noUrl, same.url]
    · simp [Disabled, overlay, flag, on]

theorem deepMerge_sameServer (found : serverEntry base name = .object merged)
    (same : SameServer entry merged) (unshadowed : mimoCodeMapShadows layer name = false)
    (isObject : SectionIsObject layer) :
    ∃ after, serverEntry (mimoCodeDeepMerge base layer) name = .object after ∧
      SameServer entry after := by
  rcases isObject with none | ⟨servers, some_⟩
  · refine ⟨merged, ?_, same⟩
    rw [← found]
    simp [serverEntry, mimoCodeDeepMerge, mergeKey, none]
  · obtain ⟨targets, target⟩ : ∃ targets, base mimoCodeMCPKey = .object targets := by
      unfold serverEntry at found
      split at found
      · exact ⟨_, ‹_›⟩
      · cases found
    have below : targets name = .object merged := by simpa [serverEntry, target] using found
    have reached : serverEntry (mimoCodeDeepMerge base layer) name =
        mergeServers targets servers name := by
      simp [serverEntry, mimoCodeDeepMerge, mergeKey, some_, target]
    simp only [mimoCodeMapShadows, some_] at unshadowed
    rw [reached]
    unfold mergeServers
    cases value : servers name with
    | absent => exact ⟨merged, below, same⟩
    | bool | raw =>
      rw [value] at unshadowed
      cases unshadowed
    | object higher =>
      rw [value] at unshadowed
      obtain ⟨enabledOnly, kept⟩ := overlay_sameServer same unshadowed
      refine ⟨overlay merged higher, ?_, kept⟩
      simp [mimoCodeMergeMCPEntry, below, enabledOnly]

theorem fold_sameServer (unshadowed : ∀ layer ∈ layers, mimoCodeMapShadows layer name = false)
    (sections : ∀ layer ∈ layers, SectionIsObject layer)
    (found : serverEntry base name = .object merged) (same : SameServer entry merged) :
    ∃ after, serverEntry (layers.foldl mimoCodeDeepMerge base) name = .object after ∧
      SameServer entry after := by
  induction layers generalizing base merged with
  | nil => exact ⟨merged, found, same⟩
  | cons layer rest ih =>
    obtain ⟨after, reached, kept⟩ := deepMerge_sameServer found same
      (unshadowed layer List.mem_cons_self) (sections layer List.mem_cons_self)
    exact ih (fun other listed => unshadowed other (List.mem_cons_of_mem layer listed))
      (fun other listed => sections other (List.mem_cons_of_mem layer listed)) reached kept

def Bare (value : Value) : Prop :=
  ∀ fields, value = .object fields →
    fields "type" = .absent ∧ fields "command" = .absent ∧ fields "url" = .absent

theorem bare_absent : Bare .absent := nofun

theorem eq_absent_of_isAbsent {value : Value} (absent : value.isAbsent = true) :
    value = .absent := by
  cases value with
  | absent => rfl
  | object | bool | raw => cases absent

theorem bare_of_enabledOnly (enabledOnly : mimoCodeIsEnabledOnlyOverride higher = true) :
    Bare (.object higher) := by
  intro fields same
  obtain rfl := Value.object.inj same
  unfold mimoCodeIsEnabledOnlyOverride at enabledOnly
  split at enabledOnly
  · simp only [Bool.and_eq_true] at enabledOnly
    exact ⟨eq_absent_of_isAbsent enabledOnly.1.1, eq_absent_of_isAbsent enabledOnly.1.2,
      eq_absent_of_isAbsent enabledOnly.2⟩
  · cases enabledOnly

theorem Bare.overlay {lower : Fields} (below : Bare (.object lower))
    (above : Bare (.object higher)) : Bare (.object (overlay lower higher)) := by
  intro fields same
  obtain rfl := Value.object.inj same
  obtain ⟨lowType, lowCommand, lowUrl⟩ := below lower rfl
  obtain ⟨noType, noCommand, noUrl⟩ := above higher rfl
  simp [LayerMerge.overlay, noType, noCommand, noUrl, lowType, lowCommand, lowUrl]

theorem bare_unshadowed {servers : Fields}
    (unshadowed : mimoCodeMapShadows layer name = false)
    (found : layer mimoCodeMCPKey = .object servers) :
    servers name = .absent ∨ ∃ entry, servers name = .object entry ∧
      mimoCodeIsEnabledOnlyOverride entry = true := by
  simp only [mimoCodeMapShadows, found] at unshadowed
  cases value : servers name with
  | absent => exact .inl rfl
  | bool | raw =>
    rw [value] at unshadowed
    cases unshadowed
  | object entry =>
    rw [value] at unshadowed
    refine .inr ⟨entry, rfl, ?_⟩
    unfold mimoCodeValueShadowsWriteTarget at unshadowed
    dsimp only at unshadowed
    split_ifs at unshadowed with enabledOnly
    exact enabledOnly

theorem deepMerge_bare (bare : Bare (serverEntry base name))
    (unshadowed : mimoCodeMapShadows layer name = false) :
    Bare (serverEntry (mimoCodeDeepMerge base layer) name) := by
  cases section_ : layer mimoCodeMCPKey with
  | absent =>
    have kept : serverEntry (mimoCodeDeepMerge base layer) name = serverEntry base name := by
      simp [serverEntry, mimoCodeDeepMerge, mergeKey, section_]
    rwa [kept]
  | bool | raw =>
    have gone : serverEntry (mimoCodeDeepMerge base layer) name = .absent := by
      simp [serverEntry, mimoCodeDeepMerge, mergeKey, section_]
    rw [gone]
    exact bare_absent
  | object servers =>
    have entries := bare_unshadowed unshadowed section_
    cases target : base mimoCodeMCPKey with
    | object targets =>
      have reached : serverEntry (mimoCodeDeepMerge base layer) name =
          mergeServers targets servers name := by
        simp [serverEntry, mimoCodeDeepMerge, mergeKey, section_, target]
      have below : Bare (targets name) := by simpa [serverEntry, target] using bare
      rw [reached]
      obtain none | ⟨entry, listed, enabledOnly⟩ := entries
      · simpa [mergeServers, none] using below
      · cases lower : targets name with
        | object fields =>
          rw [lower] at below
          simpa [mergeServers, mimoCodeMergeMCPEntry, listed, lower, enabledOnly] using
            below.overlay (bare_of_enabledOnly enabledOnly)
        | absent | bool | raw =>
          simpa [mergeServers, mimoCodeMergeMCPEntry, listed, lower] using
            bare_of_enabledOnly enabledOnly
    | absent | bool | raw =>
      have reached : serverEntry (mimoCodeDeepMerge base layer) name = servers name := by
        simp [serverEntry, mimoCodeDeepMerge, mergeKey, section_, target]
      rw [reached]
      obtain none | ⟨entry, listed, enabledOnly⟩ := entries
      · rw [none]
        exact bare_absent
      · rw [listed]
        exact bare_of_enabledOnly enabledOnly

theorem fold_bare (unshadowed : ∀ layer ∈ layers, mimoCodeMapShadows layer name = false)
    (bare : Bare (serverEntry base name)) :
    Bare (serverEntry (layers.foldl mimoCodeDeepMerge base) name) := by
  induction layers generalizing base with
  | nil => exact bare
  | cons layer rest ih =>
    exact ih (fun other listed => unshadowed other (List.mem_cons_of_mem layer listed))
      (deepMerge_bare bare (unshadowed layer List.mem_cons_self))

theorem deepMerge_of_not_sectionIsObject (broken : ¬SectionIsObject layer) :
    serverEntry (mimoCodeDeepMerge base layer) name = .absent := by
  cases section_ : layer mimoCodeMCPKey with
  | absent => exact absurd (.inl section_) broken
  | object servers => exact absurd (.inr ⟨servers, section_⟩) broken
  | bool | raw => simp [serverEntry, mimoCodeDeepMerge, mergeKey, section_]

theorem fold_bare_of_broken (unshadowed : ∀ layer ∈ layers, mimoCodeMapShadows layer name = false)
    (listed : layer ∈ layers) (broken : ¬SectionIsObject layer) :
    Bare (serverEntry (layers.foldl mimoCodeDeepMerge base) name) := by
  obtain ⟨before, behind, rfl⟩ := List.append_of_mem listed
  rw [List.foldl_append, List.foldl_cons]
  apply fold_bare
  · intro other inside
    exact unshadowed other (List.mem_append_right before (List.mem_cons_of_mem layer inside))
  · rw [deepMerge_of_not_sectionIsObject broken]
    exact bare_absent

/-- A full entry that no higher layer shadows is the server that the merge gives, exactly when the
`mcp` section of every higher layer is an object. -/
theorem unshadowed_entry_survives (found : serverEntry base name = .object entry)
    (full : Full entry) (unshadowed : ∀ layer ∈ layers, mimoCodeMapShadows layer name = false) :
    (∃ merged, serverEntry (layers.foldl mimoCodeDeepMerge base) name = .object merged ∧
      SameServer entry merged) ↔ ∀ layer ∈ layers, SectionIsObject layer := by
  constructor
  · rintro ⟨merged, reached, same⟩ layer listed
    by_contra broken
    obtain ⟨noType, noCommand, noUrl⟩ :=
      fold_bare_of_broken unshadowed listed broken merged reached
    obtain hasType | hasCommand | hasUrl := full.1
    · exact hasType (same.type.symm.trans noType)
    · exact hasCommand (same.command.symm.trans noCommand)
    · exact hasUrl (same.url.symm.trans noUrl)
  · intro sections
    exact fold_sameServer unshadowed sections found ⟨rfl, rfl, rfl, full.2⟩

def single (key : String) (value : Value) : Fields := fun k => if k = key then value else .absent

def memoryEntry : Fields := fun k =>
  if k = "type" then .raw "\"local\"" else if k = "command" then .raw "[\"memory\"]" else .absent

def memoryLayer (entry : Fields) : Fields :=
  single mimoCodeMCPKey (.object (single "memory" (.object entry)))

theorem memoryEntry_full : Full memoryEntry := ⟨.inl nofun, nofun⟩

theorem unshadowed_entry_survives_enabled :
    ∃ merged, serverEntry
        ([memoryLayer (single "enabled" (.bool true))].foldl mimoCodeDeepMerge
          (memoryLayer memoryEntry)) "memory" = .object merged ∧ SameServer memoryEntry merged :=
  (unshadowed_entry_survives rfl memoryEntry_full (by
    intro layer listed
    rw [List.mem_singleton.mp listed]
    rfl)).mpr (by
      intro layer listed
      rw [List.mem_singleton.mp listed]
      exact .inr ⟨_, rfl⟩)

/-- A layer whose `mcp` section is null does not shadow, and takes every entry away. -/
theorem null_section_takes_entry :
    serverEntry (memoryLayer memoryEntry) "memory" = .object memoryEntry ∧ Full memoryEntry ∧
      mimoCodeMapShadows (single mimoCodeMCPKey (.raw "null")) "memory" = false ∧
      serverEntry ([single mimoCodeMCPKey (.raw "null")].foldl mimoCodeDeepMerge
        (memoryLayer memoryEntry)) "memory" = .absent :=
  ⟨rfl, memoryEntry_full, rfl, rfl⟩

end McpLocalHub.Clients.LayerMerge
