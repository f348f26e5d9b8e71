/- Module: Hub/EventStream
   source: internal/api/hub_mcp_aggregator.go
   digest: The JSON-RPC response picked out of an event stream, against the events of the stream.
   -/

import McpLocalHub.Foundation.Lines
import McpLocalHub.Foundation.RawJSON
import Mathlib.Algebra.Order.BigOperators.Group.List
import Mathlib.Algebra.Order.Ring.Nat

set_option autoImplicit false

namespace McpLocalHub.Hub.EventStream

open Foundation.Lines Foundation.RawJSON List

abbrev Bytes := List UInt8

def lf : UInt8 := 10
def cr : UInt8 := 13
def space : UInt8 := 32
def colon : UInt8 := 58

def dataField : Bytes := [100, 97, 116, 97, 58]

def dropCR (line : Bytes) : Bytes := if line.getLast? = some cr then line.dropLast else line

/-- The tokens of `bufio.ScanLines`. A body within the cap has no line that is too long for the
scanner's buffer. -/
def scanLines (stream : Bytes) : List Bytes :=
  (cutAt lf stream).1.map dropCR ++
    (if (cutAt lf stream).2 = [] then [] else [dropCR (cutAt lf stream).2])

def fieldValue (line : Bytes) : Bytes :=
  if (line.drop 5).head? = some space then line.drop 6 else line.drop 5

def scan (selectResponse : List Bytes → Option Bytes) (responseDescription : String)
    (maxBytes : ℕ) : List Bytes → ℕ → List Bytes → Except String Bytes
  | [], _, dataLines =>
    match if dataLines ≠ [] then selectResponse dataLines else none with
    | some payload => .ok payload
    | none => .error ("SSE stream ended without a " ++ responseDescription)
  | raw :: rest, totalBytes, dataLines =>
    let totalBytes := totalBytes + (raw.length + 1)
    if maxBytes < totalBytes then
      .error ("SSE response too large (> " ++ toString maxBytes ++ " bytes)")
    else
      let line := dropCR raw
      if line = [] then
        match if dataLines ≠ [] then selectResponse dataLines else none with
        | some payload => .ok payload
        | none => scan selectResponse responseDescription maxBytes rest totalBytes []
      else if line.head? = some colon then
        scan selectResponse responseDescription maxBytes rest totalBytes dataLines
      else if dataField.isPrefixOf line = false then
        scan selectResponse responseDescription maxBytes rest totalBytes dataLines
      else
        scan selectResponse responseDescription maxBytes rest totalBytes
          (dataLines ++ [fieldValue line])

def readSSESelectedResponse (stream : Bytes) (maxBytes : ℕ)
    (selectResponse : List Bytes → Option Bytes) (responseDescription : String) :
    Except String Bytes :=
  scan selectResponse responseDescription maxBytes (scanLines stream) 0 []

structure Decoder where
  decode : Bytes → Line
  empty_malformed : decode [] = .malformed

/-- The letters of a field's name are compared without their case. Two further characters fold to
a letter. -/
def foldChar (c : Char) : Char :=
  if c = '\u017f' then 's' else if c = '\u212a' then 'k' else c.toLower

def namesField (key name : String) : Bool :=
  decide (key.toList.map foldChar = name.toList.map foldChar)

/-- A string field after decoding: null leaves it as it is, and a value of another type fails the
decoding. -/
def decodeString (fields : Fields) (name : String) : Option String :=
  (fields.filter (fun field => namesField field.1 name)).foldl (fun decoded field =>
    decoded.bind (fun text =>
      match field.2 with
      | .string value => some value
      | .null => some text
      | _ => none)) (some "")

def decodeRaw (fields : Fields) (name : String) : Option RawMessage :=
  (fields.filter (fun field => namesField field.1 name)).getLast?.map Prod.snd

def joinLines (dataLines : List Bytes) : Bytes := [lf].intercalate dataLines

def selectJSONRPCResponse (json : Decoder) (dataLines : List Bytes) : Option Bytes :=
  let payload := joinLines dataLines
  match json.decode payload with
  | .malformed => none
  | .object fields =>
    match decodeString fields "jsonrpc", decodeString fields "method" with
    | some jsonrpc, some method =>
      if jsonrpc ≠ "2.0" then none
      else if decodeRaw fields "id" = none ∨ method ≠ "" then none
      else some payload
    | _, _ => none

def readSSEResponse (json : Decoder) (stream : Bytes) (maxBytes : ℕ) : Except String Bytes :=
  readSSESelectedResponse stream maxBytes (selectJSONRPCResponse json) "JSON-RPC response event"

def isBlank (line : Bytes) : Bool := decide (line = [])

def dataValue (line : Bytes) : Option Bytes :=
  if dataField.isPrefixOf line then some (fieldValue line) else none

def eventsOf (lines : List Bytes) : List (List Bytes) :=
  (runs isBlank lines).map (List.filterMap dataValue)

def isResponse (json : Decoder) (payload : Bytes) : Bool :=
  match json.decode payload with
  | .malformed => false
  | .object fields =>
    decide (member fields "jsonrpc" = some (.string "2.0") ∧ (member fields "id").isSome ∧
      member fields "method" = none)

def firstResponse (json : Decoder) (events : List (List Bytes)) : Option Bytes :=
  (events.map joinLines).find? (isResponse json)

def withEarlier (dataLines : List Bytes) : List (List Bytes) → List (List Bytes)
  | [] => [dataLines]
  | event :: events => (dataLines ++ event) :: events

section Scan

variable {selectResponse : List Bytes → Option Bytes} (responseDescription : String) {maxBytes : ℕ}

theorem eventsOf_blank (rest : List Bytes) : eventsOf ([] :: rest) = [] :: eventsOf rest := by
  simp [eventsOf, runs, isBlank]

theorem eventsOf_ne_nil (rest : List Bytes) : eventsOf rest ≠ [] := by
  intro empty
  exact runs_ne_nil isBlank rest (map_eq_nil_iff.mp empty)

variable {line : Bytes} {events : List (List Bytes)}

theorem eventsOf_cons (full : line ≠ []) (rest : List Bytes) :
    eventsOf (line :: rest) = withEarlier (dataValue line).toList (eventsOf rest) := by
  have filled := runs_ne_nil isBlank rest
  rw [eventsOf, runs, if_neg (by simpa [isBlank] using full), eventsOf]
  cases shape : runs isBlank rest with
  | nil => exact absurd shape filled
  | cons first others =>
    simp only [consHead, map_cons, filterMap_cons, withEarlier]
    cases dataValue line <;> rfl

theorem withEarlier_append (first second : List Bytes) (filled : events ≠ []) :
    withEarlier first (withEarlier second events) = withEarlier (first ++ second) events := by
  cases events with
  | nil => exact absurd rfl filled
  | cons event others => simp [withEarlier]

theorem withEarlier_nil (filled : events ≠ []) : withEarlier [] events = events := by
  cases events with
  | nil => exact absurd rfl filled
  | cons event others => rfl

theorem dataValue_comment (comment : line.head? = some colon) : dataValue line = none := by
  cases line with
  | nil => cases comment
  | cons first rest =>
    obtain rfl : first = colon := Option.some.inj comment
    simp [dataValue, dataField, colon]

/-- The events that the loop comes to: without the last one where the charge goes over the cap. -/
def heard (whole : Bool) (events : List (List Bytes)) : List (List Bytes) :=
  if whole then events else events.dropLast

theorem heard_cons (whole : Bool) (event : List Bytes) (more : events ≠ []) :
    heard whole (event :: events) = event :: heard whole events := by
  cases whole with
  | true => rfl
  | false => exact dropLast_cons_of_ne_nil more

def charge (raws : List Bytes) : ℕ := (raws.map (fun raw => raw.length + 1)).sum

/-- The charge goes over the cap with the last line only, and that line is not blank. -/
def LastOver (totalBytes maxBytes : ℕ) (raws : List Bytes) : Prop :=
  totalBytes ≤ maxBytes ∧ (totalBytes + charge raws ≤ maxBytes ∨
    ∃ before last, raws = before ++ [last] ∧ dropCR last ≠ [] ∧
      totalBytes + charge before ≤ maxBytes)

theorem LastOver.cons {raw : Bytes} {rest : List Bytes} {totalBytes : ℕ}
    (beyond : LastOver totalBytes maxBytes (raw :: rest)) :
    LastOver (totalBytes + (raw.length + 1)) maxBytes rest ∨
      maxBytes < totalBytes + (raw.length + 1) ∧ rest = [] ∧ dropCR raw ≠ [] := by
  obtain ⟨within, fits | ⟨before, last, shape, full, init⟩⟩ := beyond
  · simp only [charge, map_cons, sum_cons] at fits
    exact .inl ⟨by omega, .inl (by unfold charge; omega)⟩
  · cases before with
    | nil =>
      obtain ⟨rfl, rfl⟩ := cons.inj shape
      by_cases fits : totalBytes + (raw.length + 1) ≤ maxBytes
      · exact .inl ⟨fits, .inl fits⟩
      · exact .inr ⟨by omega, rfl, full⟩
    | cons first before =>
      obtain ⟨rfl, rfl⟩ := cons.inj shape
      simp only [charge, map_cons, sum_cons] at init
      exact .inl ⟨by omega, .inr ⟨before, last, rfl, full, by unfold charge; omega⟩⟩

theorem scan_toOption (silent : selectResponse [] = none) (raws : List Bytes) :
    ∀ (totalBytes : ℕ) (dataLines : List Bytes), LastOver totalBytes maxBytes raws →
      (scan selectResponse responseDescription maxBytes raws totalBytes dataLines).toOption =
        (heard (decide (totalBytes + charge raws ≤ maxBytes))
          (withEarlier dataLines (eventsOf (raws.map dropCR)))).findSome? selectResponse := by
  have tried (dataLines : List Bytes) :
      (if dataLines ≠ [] then selectResponse dataLines else none) = selectResponse dataLines := by
    by_cases empty : dataLines = []
    · rw [if_neg (by simpa using empty), empty, silent]
    · rw [if_pos empty]
  induction raws with
  | nil =>
    intro totalBytes dataLines beyond
    rw [scan, tried, decide_eq_true (show totalBytes + charge [] ≤ maxBytes from beyond.1)]
    simp only [heard, map_nil, eventsOf, runs, map_cons, filterMap_nil, withEarlier, append_nil,
      if_true, List.findSome?_cons, List.findSome?_nil]
    cases selectResponse dataLines <;> rfl
  | cons raw rest ih =>
    intro totalBytes dataLines beyond
    have filled := eventsOf_ne_nil (rest.map dropCR)
    have sum : totalBytes + charge (raw :: rest) =
        totalBytes + (raw.length + 1) + charge rest := by
      simp only [charge, map_cons, sum_cons]
      omega
    rcases beyond.cons with later | ⟨tooMany, rfl, full⟩
    · rw [scan, if_neg (not_lt.mpr later.1), map_cons, tried, sum]
      by_cases blank : dropCR raw = []
      · rw [if_pos blank, blank, eventsOf_blank, withEarlier, append_nil, heard_cons _ _ filled,
          List.findSome?_cons]
        cases selectResponse dataLines with
        | some payload => rfl
        | none =>
          dsimp only
          rw [ih _ _ later, withEarlier_nil filled]
      · rw [if_neg blank, eventsOf_cons blank, withEarlier_append _ _ filled]
        split_ifs with comment other
        · rw [ih _ _ later, dataValue_comment comment, Option.toList_none, append_nil]
        · have silentLine : dataValue (dropCR raw) = none := by simp [dataValue, other]
          rw [ih _ _ later, silentLine, Option.toList_none, append_nil]
        · have value : dataValue (dropCR raw) = some (fieldValue (dropCR raw)) := by
            simpa [dataValue] using other
          rw [ih _ _ later, value, Option.toList_some]
    · have beyond : ¬ totalBytes + charge [raw] ≤ maxBytes := by
        rw [sum]
        unfold charge
        omega
      rw [scan, if_pos tooMany, decide_eq_false beyond, map_singleton, eventsOf_cons full]
      rfl

end Scan

/-- The second carriage return that the loop takes off a line has no part in the reading. -/
def Unharmed (line : Bytes) : Prop :=
  line.getLast? = some cr → line ≠ [cr] ∧ dataField.isPrefixOf line = false

/-- None of the events that the lines end is a response. -/
def Undecided (json : Decoder) (dataLines : List Bytes) (lines : List Bytes) : Prop :=
  ∀ event ∈ (withEarlier dataLines (eventsOf lines)).dropLast,
    isResponse json (joinLines event) = false

/-- The first event that the reader or the standard takes for a response is one for both, and the
reader comes to it. -/
def Shared (json : Decoder) (whole : Bool) (events : List (List Bytes)) : Prop :=
  ∀ before event after, events = before ++ event :: after →
    (∀ earlier ∈ before, isResponse json (joinLines earlier) = false ∧
      selectJSONRPCResponse json earlier = none) →
    (isResponse json (joinLines event) = true ↔
      (selectJSONRPCResponse json event).isSome = true ∧ (after = [] → whole = true))

/-- The envelope spells the three members as they are, each once, and has no empty method. -/
structure PlainEnvelope (fields : Fields) : Prop where
  exact : ∀ name ∈ ["jsonrpc", "id", "method"],
    (fields.filter (fun field => namesField field.1 name)).map Prod.fst ∈ [[], [name]]
  filled : member fields "method" ≠ some .null ∧ member fields "method" ≠ some (.string "")

theorem dropCR_length (line : Bytes) : (dropCR line).length ≤ line.length := by
  unfold dropCR
  split_ifs
  · exact length_dropLast ▸ Nat.sub_le _ _
  · exact le_rfl

variable {line : Bytes} {json : Decoder}

theorem Unharmed.reads (unharmed : Unharmed line) :
    (dropCR line = [] ↔ line = []) ∧ dataValue (dropCR line) = dataValue line := by
  unfold dropCR
  split_ifs with ends
  · obtain ⟨longer, other⟩ := unharmed ends
    obtain ⟨before, rfl⟩ : ∃ before, line = before ++ [cr] := by
      obtain ⟨before, last, rfl⟩ := eq_nil_or_concat line |>.resolve_left (by rintro rfl; cases ends)
      exact ⟨before, by simpa using ends⟩
    have filled : before ≠ [] := by
      rintro rfl
      exact longer rfl
    have noData : dataField.isPrefixOf before = false := by
      cases data : dataField.isPrefixOf before with
      | false => rfl
      | true =>
        have further := ( isPrefixOf_iff_prefix.mp data).trans (prefix_append before [cr])
        rw [ isPrefixOf_iff_prefix.mpr further] at other
        cases other
    simp [dataValue, noData, other, filled]
  · exact ⟨Iff.rfl, rfl⟩

theorem lastOver_scanLines {stream : Bytes} {maxBytes : ℕ} (within : stream.length ≤ maxBytes) :
    LastOver 0 maxBytes (scanLines stream) := by
  have whole := cutAt_length lf stream
  have ended : charge ((cutAt lf stream).1.map dropCR) ≤ charge (cutAt lf stream).1 := by
    unfold charge
    rw [map_map]
    exact sum_le_sum (fun line _ => Nat.succ_le_succ (dropCR_length line))
  have closed : charge (cutAt lf stream).1 + (cutAt lf stream).2.length = stream.length := whole
  refine ⟨Nat.zero_le _, ?_⟩
  unfold scanLines
  split_ifs with empty
  · rw [append_nil]
    exact .inl (by omega)
  · by_cases ends : (cutAt lf stream).2.getLast? = some cr
    · have shorter : (dropCR (cutAt lf stream).2).length + 1 = (cutAt lf stream).2.length := by
        rw [dropCR, if_pos ends, length_dropLast]
        have := length_pos_of_ne_nil empty
        omega
      left
      simp only [charge, map_append, sum_append, map_singleton, sum_singleton] at ended closed ⊢
      omega
    · refine .inr ⟨_, _, rfl, ?_, by omega⟩
      have same : dropCR (cutAt lf stream).2 = (cutAt lf stream).2 := if_neg ends
      rwa [same, same]

theorem namesField_self (name : String) : namesField name name = true := decide_eq_true rfl

theorem single_member {fields : Fields} {name : String}
    (exact : (fields.filter (fun field => namesField field.1 name)).map Prod.fst ∈ [[], [name]]) :
    (fields.filter (fun field => namesField field.1 name) = [] ∧ member fields name = none) ∨
      ∃ value, fields.filter (fun field => namesField field.1 name) = [(name, value)] ∧
        member fields name = some value := by
  have narrowed : fields.filter (fun field => field.1 = name) =
      (fields.filter (fun field => namesField field.1 name)).filter (fun field => field.1 = name) := by
    rw [filter_filter]
    refine filter_congr (fun field _ => ?_)
    by_cases same : field.1 = name
    · simp [same, namesField_self]
    · simp [same]
  rw [member_eq_getLast, narrowed]
  generalize fields.filter (fun field => namesField field.1 name) = named at exact ⊢
  simp only [mem_cons, not_mem_nil, or_false] at exact
  rcases exact with none | one
  · rw [map_eq_nil_iff.mp none]
    exact .inl ⟨rfl, rfl⟩
  · obtain ⟨field, rest, rfl, first, others⟩ := map_eq_cons_iff.mp one
    obtain rfl := map_eq_nil_iff.mp others
    obtain ⟨key, value⟩ := field
    obtain rfl : key = name := first
    exact .inr ⟨value, rfl, by simp⟩

theorem select_eq {dataLines : List Bytes}
    (plain : ∀ fields, json.decode (joinLines dataLines) = .object fields → PlainEnvelope fields) :
    selectJSONRPCResponse json dataLines =
      if isResponse json (joinLines dataLines) then some (joinLines dataLines) else none := by
  cases decoded : json.decode (joinLines dataLines) with
  | malformed => simp [selectJSONRPCResponse, isResponse, decoded]
  | object fields =>
    have envelope := plain fields decoded
    have version := single_member (envelope.exact "jsonrpc" (by simp))
    have identity := single_member (envelope.exact "id" (by simp))
    have method := single_member (envelope.exact "method" (by simp))
    have hasId : decodeRaw fields "id" = member fields "id" := by
      rcases identity with ⟨none, absent⟩ | ⟨value, one, present⟩
      · rw [decodeRaw, none, absent]; rfl
      · rw [decodeRaw, one, present]; rfl
    have noMethod : decodeString fields "method" = some "" ↔ member fields "method" = none := by
      rcases method with ⟨none, absent⟩ | ⟨value, one, present⟩
      · rw [decodeString, none, absent]; simp
      · have filled := envelope.filled
        rw [decodeString, one, present]
        cases value <;> simp_all
    have isTwo : decodeString fields "jsonrpc" = some "2.0" ↔
        member fields "jsonrpc" = some (.string "2.0") := by
      rcases version with ⟨none, absent⟩ | ⟨value, one, present⟩
      · rw [decodeString, none, absent]; simp
      · rw [decodeString, one, present]
        cases value <;> simp
    simp only [selectJSONRPCResponse, isResponse, decoded, ← isTwo, ← noMethod, ← hasId,
      decide_eq_true_eq]
    cases decodeString fields "jsonrpc" with
    | none => simp
    | some jsonrpc =>
      cases decodeString fields "method" with
      | none => simp
      | some text =>
        by_cases two : jsonrpc = "2.0" <;> by_cases empty : text = "" <;>
          cases decodeRaw fields "id" <;> simp [two, empty]

theorem select_payload {event : List Bytes} {payload : Bytes}
    (selected : selectJSONRPCResponse json event = some payload) : joinLines event = payload := by
  unfold selectJSONRPCResponse at selected
  dsimp only at selected
  split at selected
  · cases selected
  · split at selected
    · split_ifs at selected
      exact Option.some.inj selected
    · cases selected

theorem select_congr {event other : List Bytes} (same : joinLines event = joinLines other) :
    selectJSONRPCResponse json event = selectJSONRPCResponse json other := by
  unfold selectJSONRPCResponse
  rw [same]

/-- Two cuts of the same lines into events that differ only behind a response. -/
inductive Alike (json : Decoder) : List (List Bytes) → List (List Bytes) → Prop
  | same (events : List (List Bytes)) : Alike json events events
  | decided {event : List Bytes} {events others : List (List Bytes)}
      (response : isResponse json (joinLines event) = true) (more : events ≠ [])
      (more' : others ≠ []) : Alike json (event :: events) (event :: others)
  | later {events others : List (List Bytes)} (event : List Bytes) (more : events ≠ [])
      (more' : others ≠ []) (rest : Alike json events others) :
      Alike json (event :: events) (event :: others)

theorem eventsOf_skip (full : line ≠ []) (silent : dataValue line = none)
    (before after : List Bytes) : eventsOf (before ++ line :: after) = eventsOf (before ++ after) :=
  runs_filterMap_skip isBlank dataValue before after (by simpa [isBlank] using full) silent

theorem firstResponse_skip {before : List Bytes}
    (others : ∀ event ∈ eventsOf before, isResponse json (joinLines event) = false)
    (after : List Bytes) :
    firstResponse json (eventsOf (before ++ [] :: after)) = firstResponse json (eventsOf after) := by
  have split : eventsOf (before ++ [] :: after) = eventsOf before ++ eventsOf after := by
    rw [eventsOf, runs_append_blank isBlank before after (by simp [isBlank]), map_append]
    rfl
  have none : ((eventsOf before).map joinLines).find? (isResponse json) = none := by
    rw [List.find?_eq_none]
    intro payload listed
    obtain ⟨event, among, rfl⟩ := mem_map.mp listed
    simp [others event among]
  rw [split, firstResponse, map_append, List.find?_append, none, Option.none_or]
  rfl

theorem shared_single (whole : Bool) (event : List Bytes) :
    Shared json whole [event] ↔ (isResponse json (joinLines event) = true ↔
      (selectJSONRPCResponse json event).isSome = true ∧ whole = true) := by
  constructor
  · intro shared
    simpa using shared [] event [] rfl nofun
  · intro judged before other after shape _
    cases before with
    | nil =>
      obtain ⟨rfl, rfl⟩ := cons.inj shape
      simpa using judged
    | cons first before => simp at shape

theorem shared_cons {whole : Bool} {event : List Bytes} {events : List (List Bytes)}
    (more : events ≠ []) : Shared json whole (event :: events) ↔
      (isResponse json (joinLines event) = true ↔
        (selectJSONRPCResponse json event).isSome = true) ∧
      (isResponse json (joinLines event) = false ∧ selectJSONRPCResponse json event = none →
        Shared json whole events) := by
  constructor
  · intro shared
    refine ⟨by simpa [more] using shared [] event events rfl nofun, ?_⟩
    intro undecided before other after shape earlier
    exact shared (event :: before) other after (congrArg _ shape)
      (forall_mem_cons.mpr ⟨undecided, earlier⟩)
  · rintro ⟨judged, later⟩ before other after shape earlier
    cases before with
    | nil =>
      obtain ⟨rfl, rfl⟩ := cons.inj shape
      simpa [more] using judged
    | cons first before =>
      obtain ⟨rfl, rfl⟩ := cons.inj shape
      obtain ⟨undecided, others⟩ := forall_mem_cons.mp earlier
      exact later undecided before other after rfl others

theorem firstResponse_cons (event : List Bytes) (events : List (List Bytes)) :
    firstResponse json (event :: events) =
      if isResponse json (joinLines event) then some (joinLines event)
      else firstResponse json events := by
  unfold firstResponse
  rw [map_cons, List.find?_cons]
  cases isResponse json (joinLines event) <;> rfl

/-- An event on which the reader and the standard differ decides the answer wrongly. -/
theorem first_differs {event : List Bytes} {events others : List (List Bytes)}
    (differ : ¬ (isResponse json (joinLines event) = true ↔
      (selectJSONRPCResponse json event).isSome = true)) :
    (event :: others).findSome? (selectJSONRPCResponse json) ≠
      firstResponse json (event :: events) := by
  rw [firstResponse_cons, List.findSome?_cons]
  cases selected : selectJSONRPCResponse json event with
  | some payload =>
    have unread : isResponse json (joinLines event) = false := by simpa [selected] using differ
    obtain rfl := select_payload selected
    rw [unread]
    intro same
    have found := List.find?_some same.symm
    rw [unread] at found
    cases found
  | none =>
    have response : isResponse json (joinLines event) = true := by simpa [selected] using differ
    rw [response]
    intro same
    obtain ⟨other, _, told⟩ := List.exists_of_findSome?_eq_some same
    have payload := select_payload told
    rw [select_congr payload, selected] at told
    cases told

theorem first_iff_shared {whole : Bool} {events others : List (List Bytes)}
    (alike : Alike json events others) (filled : events ≠ []) :
    (heard whole others).findSome? (selectJSONRPCResponse json) = firstResponse json events ↔
      Shared json whole events := by
  have onward {event : List Bytes} {events others : List (List Bytes)} (more : events ≠ [])
      (more' : others ≠ []) (rest : isResponse json (joinLines event) = false →
        ((heard whole others).findSome? (selectJSONRPCResponse json) = firstResponse json events ↔
          Shared json whole events)) :
      (heard whole (event :: others)).findSome? (selectJSONRPCResponse json) =
        firstResponse json (event :: events) ↔ Shared json whole (event :: events) := by
    rw [heard_cons _ _ more', shared_cons more]
    by_cases judged : isResponse json (joinLines event) = true ↔
        (selectJSONRPCResponse json event).isSome = true
    · rw [firstResponse_cons, List.findSome?_cons]
      cases selected : selectJSONRPCResponse json event with
      | some payload =>
        rw [selected] at judged
        have response := judged.mpr rfl
        obtain rfl := select_payload selected
        simp [response]
      | none =>
        rw [selected] at judged
        have unread : isResponse json (joinLines event) = false := by simpa using judged
        simpa [unread] using rest unread
    · exact iff_of_false (first_differs judged) (fun shared => judged shared.1)
  induction alike with
  | same events =>
    induction events with
    | nil => exact absurd rfl filled
    | cons event events ih =>
      by_cases more : events = []
      · subst more
        rw [shared_single, firstResponse_cons]
        cases whole with
        | true =>
          cases selected : selectJSONRPCResponse json event with
          | some payload =>
            obtain rfl := select_payload selected
            simp [heard, selected, firstResponse]
          | none => simp [heard, selected, firstResponse]
        | false => simp [heard, firstResponse]
      · exact onward more more (fun _ => ih more)
  | decided response more more' =>
    refine onward more more' (fun unread => ?_)
    rw [response] at unread
    cases unread
  | later event more more' _ ih => exact onward more more' (fun _ => ih more)

theorem alike_of_unharmed {lines : List Bytes} : ∀ {dataLines : List Bytes},
    (∀ before line after, lines = before ++ line :: after → Undecided json dataLines before →
      Unharmed line) →
    Alike json (withEarlier dataLines (eventsOf lines))
      (withEarlier dataLines (eventsOf (lines.map dropCR))) := by
  induction lines with
  | nil => exact fun _ => .same _
  | cons line rest ih =>
    intro dataLines unharmed
    have filled := eventsOf_ne_nil rest
    have filled' := eventsOf_ne_nil (rest.map dropCR)
    obtain ⟨blanks, values⟩ := (unharmed [] line rest rfl nofun).reads
    rw [map_cons]
    by_cases blank : line = []
    · rw [blanks.mpr blank, blank, eventsOf_blank, eventsOf_blank, withEarlier, withEarlier,
        append_nil]
      cases response : isResponse json (joinLines dataLines) with
      | true => exact .decided response filled filled'
      | false =>
        have onward := @ih [] (fun before next after shape undecided => by
          refine unharmed (line :: before) next after (congrArg _ shape) ?_
          intro event listed
          rw [blank, eventsOf_blank, withEarlier, append_nil,
            dropLast_cons_of_ne_nil (eventsOf_ne_nil before)] at listed
          rcases mem_cons.mp listed with rfl | later
          · exact response
          · exact undecided event (by rwa [withEarlier_nil (eventsOf_ne_nil before)]))
        rw [withEarlier_nil filled, withEarlier_nil filled'] at onward
        exact .later dataLines filled filled' onward
    · rw [eventsOf_cons blank, eventsOf_cons (mt blanks.mp blank), values,
        withEarlier_append _ _ filled, withEarlier_append _ _ filled']
      refine ih (fun before next after shape undecided => ?_)
      refine unharmed (line :: before) next after (congrArg _ shape) ?_
      unfold Undecided
      rwa [eventsOf_cons blank, withEarlier_append _ _ (eventsOf_ne_nil before)]

def knows (payload : Bytes) (fields : Fields) (filled : payload ≠ []) : Decoder where
  decode := fun text => if text = payload then .object fields else .malformed
  empty_malformed := if_neg (fun same => filled same.symm)

def reply : Decoder :=
  knows [123, 125] [("jsonrpc", .string "2.0"), ("id", .number "1")] (cons_ne_nil _ _)

def emptyCall : Decoder :=
  knows [123, 125] [("jsonrpc", .string "2.0"), ("id", .number "1"), ("method", .string "")]
    (cons_ne_nil _ _)

def splitReply : Decoder :=
  knows [123, 10, 125] [("jsonrpc", .string "2.0"), ("id", .number "1")] (cons_ne_nil _ _)

def openEvent : Bytes := dataField ++ [123, 125]

def doubleReturn : Bytes := dataField ++ [123, 10, 13, 13, 10] ++ dataField ++ [125, 10, 10]

def lateComment : Bytes := openEvent ++ [10, 10, 58, 120]

end McpLocalHub.Hub.EventStream
