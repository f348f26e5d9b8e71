/- Module: Supervisor/IntentCollapse
   source: internal/api/intent_collapse.go, internal/api/supervisor_intent.go
   digest: The merge of the legacy stop file, and the gate in front of its deletion. -/

import McpLocalHub.Foundation.Maps
import McpLocalHub.Supervisor.Intents
import Mathlib.Data.List.Sort

set_option autoImplicit false

/-!
One run holds the lock of the legacy file and is taken without a concurrent writer, so it is a
function of the two files. Reading and writing them succeeds; the counter of the generations has no
bound here. A legacy file is iterated in the order of its entries, which is any order.
-/

namespace McpLocalHub.Supervisor.IntentCollapse

open Foundation.Maps Intents

abbrev StopMap := Map String DaemonIntent

def canonicalIntentTaskKey (taskName : String) : String :=
  if taskName = "" then taskName
  else if hasBackslash taskName then taskName
  else "\\" ++ taskName

structure SupervisorIntentFile where
  intentGeneration : ℕ := 0
  stops : StopMap := ∅
  legacyStopWatermarks : StopMap := ∅

/-- One spelling of `normalizeDaemonIntentMapKeys`: the later record wins, and on a tie the record
under the canonical spelling. -/
def normalizeKey (rows out : StopMap) (taskName : String) : StopMap :=
  match rows.lookup taskName with
  | none => out
  | some next =>
    let canonical := canonicalIntentTaskKey taskName
    match out.lookup canonical with
    | none => out.insert canonical next
    | some current =>
      if current.updatedAt < next.updatedAt ∨
          next.updatedAt = current.updatedAt ∧ taskName = canonical then
        out.insert canonical next
      else out

def normalizeDaemonIntentMapKeys (rows : StopMap) : StopMap :=
  (rows.keys.insertionSort (· ≤ ·)).foldl (normalizeKey rows) ∅

def canonicalizeSupervisorIntentStopMaps (f : SupervisorIntentFile) : SupervisorIntentFile :=
  { f with
    stops := normalizeDaemonIntentMapKeys f.stops
    legacyStopWatermarks := normalizeDaemonIntentMapKeys f.legacyStopWatermarks }

def normalizeAbsentOnlyStopWatermarks (f : SupervisorIntentFile) : SupervisorIntentFile :=
  let canonical := canonicalizeSupervisorIntentStopMaps f
  { canonical with
    legacyStopWatermarks := keep (fun taskName => (canonical.stops.lookup taskName).isNone)
      canonical.legacyStopWatermarks }

def readSupervisorIntentForMerge : Option SupervisorIntentFile → SupervisorIntentFile
  | none => {}
  | some raw => canonicalizeSupervisorIntentStopMaps raw

def marshalNextSupervisorIntent (f : SupervisorIntentFile) : SupervisorIntentFile :=
  normalizeAbsentOnlyStopWatermarks { f with intentGeneration := f.intentGeneration + 1 }

inductive MergeStopsAction
  | added | updated | droppedExpired

structure MergeStopsEntry where
  taskName : String
  action : MergeStopsAction
  reason : IntentReason

def daemonIntentRecordsEqual (a b : DaemonIntent) : Bool := decide (a = b)

structure Merge where
  merged : StopMap
  mergedWatermarks : StopMap
  entries : List MergeStopsEntry := []

def mergeTask (now : Int) (acc : Merge) (task : (_ : String) × DaemonIntent) : Merge :=
  let key := canonicalIntentTaskKey task.1
  let di := task.2
  if di.isActiveStop now then
    match acc.merged.lookup key with
    | none =>
      if (acc.mergedWatermarks.lookup key).any (fun mark => daemonIntentRecordsEqual mark di) then acc
      else
        { merged := acc.merged.insert key di
          mergedWatermarks := acc.mergedWatermarks.erase key
          entries := acc.entries ++ [⟨key, .added, di.reason⟩] }
    | some prior =>
      if daemonIntentRecordsEqual prior di = false ∧ prior.updatedAt < di.updatedAt then
        { merged := acc.merged.insert key di
          mergedWatermarks := acc.mergedWatermarks.erase key
          entries := acc.entries ++ [⟨key, .updated, di.reason⟩] }
      else { acc with mergedWatermarks := acc.mergedWatermarks.erase key }
  else { acc with entries := acc.entries ++ [⟨key, .droppedExpired, di.reason⟩] }

structure CollapseResult where
  entries : List MergeStopsEntry
  mergedStops : StopMap
  mergedLegacyStopWatermarks : StopMap
  changed : Bool
  wrote : Bool := false
  deletedLegacyFile : Bool := false

def legacyTasks (legacy : Option StopMap) : List ((_ : String) × DaemonIntent) :=
  (legacy.map (fun tasks => tasks.entries)).getD []

def mergeLoop (intent : SupervisorIntentFile) (legacy : Option StopMap) (now : Int) : Merge :=
  let prior := normalizeAbsentOnlyStopWatermarks intent
  (legacyTasks legacy).foldl (mergeTask now) ⟨prior.stops, prior.legacyStopWatermarks, []⟩

def mergeDaemonIntentStops (intent : SupervisorIntentFile) (legacy : Option StopMap) (now : Int) :
    CollapseResult :=
  let loop := mergeLoop intent legacy now
  { entries := loop.entries.insertionSort (fun a b => a.taskName ≤ b.taskName)
    mergedStops := loop.merged
    mergedLegacyStopWatermarks := loop.mergedWatermarks
    changed := !sameEntries intent.stops loop.merged ||
      !sameEntries intent.legacyStopWatermarks loop.mergedWatermarks }

structure Disk where
  supervisorIntent : Option SupervisorIntentFile
  daemonIntent : Option StopMap

def daemonIntentRecordMergedOrSuperseded (subBlock legacy : DaemonIntent) : Bool :=
  daemonIntentRecordsEqual subBlock legacy || decide (legacy.updatedAt < subBlock.updatedAt)

/-- The gate's question about one legacy task: it is no stop any more, or a stop covers it, or its
watermark does. -/
def accountedFor (current : SupervisorIntentFile) (now : Int)
    (task : (_ : String) × DaemonIntent) : Bool :=
  let key := canonicalIntentTaskKey task.1
  !task.2.isActiveStop now ||
    (current.stops.lookup key).any
      (fun got => daemonIntentRecordMergedOrSuperseded got task.2) ||
    (current.legacyStopWatermarks.lookup key).any
      (fun watermark => daemonIntentRecordsEqual watermark task.2)

def deleteLegacyDaemonIntentIfMerged (disk : Disk) (legacy : Option StopMap) (now : Int) :
    Bool × Disk :=
  match disk.daemonIntent with
  | none => (false, disk)
  | some _ =>
    let current := readSupervisorIntentForMerge disk.supervisorIntent
    if (legacyTasks legacy).all (accountedFor current now) then
      (true, { disk with daemonIntent := none })
    else (false, disk)

def finishCollapse (result : CollapseResult) (disk : Disk) (legacy : Option StopMap) (now : Int) :
    CollapseResult × Disk :=
  let (deleted, after) := deleteLegacyDaemonIntentIfMerged disk legacy now
  ({ result with deletedLegacyFile := deleted }, after)

/-- The merge is computed on the first reads, on the second legacy read, and on the fresh intent
under its own lock. -/
def runDaemonIntentCollapse (dryRun : Bool) (now : Int) (disk : Disk) : CollapseResult × Disk :=
  let supervisorIntent := readSupervisorIntentForMerge disk.supervisorIntent
  let daemonIntent := disk.daemonIntent
  let result := mergeDaemonIntentStops supervisorIntent daemonIntent now
  if dryRun then (result, disk)
  else if result.changed = false then finishCollapse result disk daemonIntent now
  else
    let daemonIntentReread := disk.daemonIntent
    let result := mergeDaemonIntentStops supervisorIntent daemonIntentReread now
    if result.changed = false then finishCollapse result disk daemonIntentReread now
    else
      let fresh := readSupervisorIntentForMerge disk.supervisorIntent
      let result := mergeDaemonIntentStops fresh daemonIntentReread now
      if result.changed = false then finishCollapse result disk daemonIntentReread now
      else
        let written := marshalNextSupervisorIntent
          { fresh with
            stops := result.mergedStops
            legacyStopWatermarks := result.mergedLegacyStopWatermarks }
        finishCollapse { result with wrote := true } { disk with supervisorIntent := some written }
          daemonIntentReread now

theorem canonicalIntentTaskKey_eq (taskName : String) :
    canonicalIntentTaskKey taskName = canonicalSupervisorTaskName taskName := by
  unfold canonicalIntentTaskKey canonicalSupervisorTaskName
  by_cases empty : taskName = ""
  · rw [if_pos empty, if_pos (.inl empty)]
  · by_cases rooted : hasBackslash taskName = true
    · rw [if_neg empty, if_pos rooted, if_pos (.inr rooted)]
    · rw [if_neg empty, if_neg rooted, if_neg (not_or.mpr ⟨empty, rooted⟩)]

@[simp] theorem canonicalIntentTaskKey_idem (taskName : String) :
    canonicalIntentTaskKey (canonicalIntentTaskKey taskName) = canonicalIntentTaskKey taskName := by
  simp only [canonicalIntentTaskKey_eq, canonical_idem]

def Canonical (rows : StopMap) : Prop :=
  ∀ key record, rows.lookup key = some record → canonicalIntentTaskKey key = key

variable {rows out : StopMap}

theorem Canonical.insert (canonical : Canonical rows) (taskName : String)
    (record : DaemonIntent) : Canonical (rows.insert (canonicalIntentTaskKey taskName) record) := by
  intro key found hit
  rcases lookup_insert_cases hit with ⟨rfl, -⟩ | ⟨-, earlier⟩
  · exact canonicalIntentTaskKey_idem taskName
  · exact canonical key found earlier

theorem Canonical.erase (canonical : Canonical rows) (key : String) :
    Canonical (rows.erase key) := fun other record hit =>
  canonical other record (lookup_erase_cases hit).2

theorem Canonical.keep (canonical : Canonical rows) (p : String → Bool) :
    Canonical (keep p rows) := by
  intro key record hit
  rw [lookup_keep] at hit
  split_ifs at hit
  exact canonical key record hit

theorem Canonical.congr {other : StopMap} (canonical : Canonical rows)
    (same : ∀ key, other.lookup key = rows.lookup key) : Canonical other :=
  fun key record hit => canonical key record (same key ▸ hit)

theorem canonical_empty : Canonical ∅ := nofun

theorem normalizeKey_canonical (rows : StopMap) (canonical : Canonical out)
    (taskName : String) : Canonical (normalizeKey rows out taskName) := by
  unfold normalizeKey
  split
  · exact canonical
  · next next found =>
      dsimp only
      split
      · exact canonical.insert taskName next
      · split_ifs
        · exact canonical.insert taskName next
        · exact canonical

theorem normalize_canonical (rows : StopMap) : Canonical (normalizeDaemonIntentMapKeys rows) :=
  List.foldlRecOn (motive := Canonical) _ _ canonical_empty
    (fun _ held taskName _ => normalizeKey_canonical rows held taskName)

theorem normalizeKey_fresh (rows : StopMap) {taskName : String}
    (own : canonicalIntentTaskKey taskName = taskName) (fresh : out.lookup taskName = none)
    (key : String) : (normalizeKey rows out taskName).lookup key =
      if key = taskName then rows.lookup key else out.lookup key := by
  unfold normalizeKey
  rw [own]
  split
  · next absent =>
      split_ifs with same
      · rw [same, absent, fresh]
      · rfl
  · next next found =>
      dsimp only
      rw [fresh]
      split_ifs with same
      · rw [same, AList.lookup_insert, found]
      · rw [AList.lookup_insert_ne same]

theorem normalizeKeys_fresh {names : List String}
    (own : ∀ name ∈ names, canonicalIntentTaskKey name = name) (distinct : names.Nodup)
    (fresh : ∀ name ∈ names, out.lookup name = none) (key : String) :
    (names.foldl (normalizeKey rows) out).lookup key =
      if key ∈ names then rows.lookup key else out.lookup key := by
  induction names generalizing out with
  | nil => rfl
  | cons name rest ih =>
    obtain ⟨unlisted, distinctRest⟩ := List.nodup_cons.mp distinct
    have first := normalizeKey_fresh rows (own name (.head _)) (fresh name (.head _))
    have freshRest : ∀ other ∈ rest, (normalizeKey rows out name).lookup other = none := by
      intro other listed
      have apart : other ≠ name := fun same => unlisted (same ▸ listed)
      rw [first other, if_neg apart]
      exact fresh other (.tail _ listed)
    rw [List.foldl_cons, ih (fun other listed => own other (.tail _ listed)) distinctRest freshRest,
      first key]
    by_cases listed : key ∈ rest
    · rw [if_pos listed, if_pos (.tail _ listed)]
    · rw [if_neg listed]
      simp only [List.mem_cons, listed, or_false]

theorem normalize_of_canonical (canonical : Canonical rows) (key : String) :
    (normalizeDaemonIntentMapKeys rows).lookup key = rows.lookup key := by
  have sorted := List.perm_insertionSort (· ≤ ·) rows.keys
  have own : ∀ name ∈ rows.keys.insertionSort (· ≤ ·), canonicalIntentTaskKey name = name := by
    intro name listed
    have present := AList.lookup_isSome.mpr (AList.mem_keys.mpr (sorted.mem_iff.mp listed))
    obtain ⟨record, found⟩ := Option.isSome_iff_exists.mp present
    exact canonical name record found
  have distinct : (rows.keys.insertionSort (· ≤ ·)).Nodup := sorted.nodup_iff.mpr rows.keys_nodup
  unfold normalizeDaemonIntentMapKeys
  rw [normalizeKeys_fresh own distinct (fun _ _ => rfl) key]
  split_ifs with listed
  · rfl
  · have absent : key ∉ rows := fun present => listed (sorted.mem_iff.mpr (AList.mem_keys.mp present))
    rw [AList.lookup_eq_none.mpr absent]
    rfl

def stopsOf (disk : Disk) : StopMap := (readSupervisorIntentForMerge disk.supervisorIntent).stops

def watermarksOf (disk : Disk) : StopMap :=
  (readSupervisorIntentForMerge disk.supervisorIntent).legacyStopWatermarks

theorem read_canonical (file : Option SupervisorIntentFile) :
    Canonical (readSupervisorIntentForMerge file).stops ∧
      Canonical (readSupervisorIntentForMerge file).legacyStopWatermarks := by
  cases file with
  | none => exact ⟨canonical_empty, canonical_empty⟩
  | some raw => exact ⟨normalize_canonical raw.stops, normalize_canonical raw.legacyStopWatermarks⟩

def Disjoint (stops watermarks : StopMap) : Prop :=
  ∀ key, stops.lookup key = none ∨ watermarks.lookup key = none

theorem normalizeAbsentOnly_disjoint (f : SupervisorIntentFile) :
    Disjoint (normalizeAbsentOnlyStopWatermarks f).stops
      (normalizeAbsentOnlyStopWatermarks f).legacyStopWatermarks := by
  intro key
  cases stopped : (normalizeDaemonIntentMapKeys f.stops).lookup key with
  | none => exact .inl stopped
  | some record =>
    refine .inr ((lookup_keep _ _ key).trans (if_neg ?_))
    intro absent
    have gone : ((normalizeDaemonIntentMapKeys f.stops).lookup key).isNone = true := absent
    rw [stopped] at gone
    exact absurd gone Bool.false_ne_true

theorem normalizeAbsentOnly_lookup {f : SupervisorIntentFile} (stops : Canonical f.stops)
    (watermarks : Canonical f.legacyStopWatermarks) (key : String) :
    (normalizeAbsentOnlyStopWatermarks f).stops.lookup key = f.stops.lookup key ∧
      (normalizeAbsentOnlyStopWatermarks f).legacyStopWatermarks.lookup key =
        if (f.stops.lookup key).isNone then f.legacyStopWatermarks.lookup key else none := by
  have stopsSame := normalize_of_canonical stops key
  refine ⟨stopsSame, ?_⟩
  have kept := lookup_keep
    (fun taskName => ((normalizeDaemonIntentMapKeys f.stops).lookup taskName).isNone)
    (normalizeDaemonIntentMapKeys f.legacyStopWatermarks) key
  rw [stopsSame, normalize_of_canonical watermarks key] at kept
  exact kept

theorem read_written {f : SupervisorIntentFile} (stops : Canonical f.stops)
    (watermarks : Canonical f.legacyStopWatermarks)
    (disjoint : Disjoint f.stops f.legacyStopWatermarks) (key : String) :
    (readSupervisorIntentForMerge (some (marshalNextSupervisorIntent f))).stops.lookup key =
        f.stops.lookup key ∧
      (readSupervisorIntentForMerge (some (marshalNextSupervisorIntent f))).legacyStopWatermarks.lookup
        key = f.legacyStopWatermarks.lookup key := by
  have written (k : String) := normalizeAbsentOnly_lookup
    (f := { f with intentGeneration := f.intentGeneration + 1 }) stops watermarks k
  have stopsBack : Canonical (marshalNextSupervisorIntent f).stops :=
    stops.congr (fun k => (written k).1)
  have watermarksBack : Canonical (marshalNextSupervisorIntent f).legacyStopWatermarks :=
    (normalize_canonical f.legacyStopWatermarks).keep _
  constructor
  · exact (normalize_of_canonical stopsBack key).trans (written key).1
  · refine (normalize_of_canonical watermarksBack key).trans ((written key).2.trans ?_)
    rcases disjoint key with noStop | noMark
    · exact if_pos (Option.isNone_iff_eq_none.mpr noStop)
    · rw [noMark, ite_self]

end McpLocalHub.Supervisor.IntentCollapse
