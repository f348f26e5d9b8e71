/- Module: Api/AdoptCleanup
   source: internal/api/adopted_entries.go, internal/api/deadopt.go
   digest: A cleanup that removed the snapshots and not the row, and when the next pass completes
   it. -/

import Mathlib.Data.Int.Notation
import Mathlib.Data.List.Dedup

set_option autoImplicit false

namespace McpLocalHub.Api.AdoptCleanup

open List

inductive OperationState
  | adopting | adopted | defined | deAdopting | closed
  deriving DecidableEq

inductive OriginalState
  | present | absent | presentMergedLower | empty | unknown
  deriving DecidableEq

structure Client where
  client : String
  configTarget : Option String := none
  originalState : OriginalState
  snapshotRef : String := ""
  snapshotSHA256 : String := ""
  deriving DecidableEq

structure Record where
  manifestName : String
  sourceEntryName : String
  adoptClients : List String
  operationState : OperationState
  updatedAt : ℤ
  clients : List Client
  providerSource : Option String := none
  projectService : Bool := false
  deriving DecidableEq

inductive Leaf
  | snapshot (client : String)
  | installPhase
  deriving DecidableEq

structure File where
  manifest : String
  leaf : Leaf
  content : Option String
  deriving DecidableEq

structure Disk where
  records : List Record
  files : List File
  deriving DecidableEq

inductive Live
  | unresolved | readError | absent
  | entry (matchesBinding : Bool)
  deriving DecidableEq

inductive ClassifyVerdict
  | stillHub | restoreDone | genuineConflict | unreadable

structure Mutator where
  entryRawSubtree : (snapshot entryName : String) → Option String
  classifyEntryUnderLock : Record → Client → (snapshotSubtree : Option String) →
    Option ClassifyVerdict

/-- The client configs, the manifests (`none` if one cannot be checked) and the functions on names
and texts. -/
structure World where
  live : Record → (client : String) → Live
  mutator : Record → Client → Option Mutator
  adoptManifestExists : String → Option Bool
  manifestHashContent : String → String
  validSnapshotClientName : String → Bool
  validSnapshotDir : String → Bool

inductive SnapshotState
  | notApplicable
  | available (subtree : String)
  | missing
  | unreadable (reason : String)

variable (w : World)

def readDeAdoptSnapshot (d : Disk) (rec : Record) (c : Client) (mutator : Mutator) :
    SnapshotState :=
  if c.originalState ≠ .present then .notApplicable
  else if c.snapshotSHA256 = "" then .unreadable "snapshot integrity hash is missing"
  else if !w.validSnapshotClientName c.client then .unreadable "snapshot client name is invalid"
  else if !w.validSnapshotDir rec.manifestName then
    .unreadable "snapshot path could not be recomputed"
  else
    match d.files.find? (fun f => f.manifest = rec.manifestName ∧ f.leaf = .snapshot c.client) with
    | none => .missing
    | some ⟨_, _, none⟩ => .unreadable "snapshot could not be read"
    | some ⟨_, _, some snapshot⟩ =>
      if w.manifestHashContent snapshot ≠ c.snapshotSHA256 then
        .unreadable "snapshot hash does not match adopt provenance"
      else
        match mutator.entryRawSubtree snapshot rec.sourceEntryName with
        | none => .unreadable "snapshot does not contain the recorded entry"
        | some subtree => .available subtree

def adoptRecordHasSharedStdioTarget (rec : Record) : Bool :=
  rec.clients.any (fun c => c.configTarget = some "codex_shared_stdio")

def comparedSubtree (d : Disk) (rec : Record) (c : Client) (mutator : Mutator) :
    Option (Option String) :=
  match c.originalState with
  | .present =>
    match readDeAdoptSnapshot w d rec c mutator with
    | .available subtree => some (some subtree)
    | _ => none
  | .absent | .presentMergedLower => some none
  | .empty =>
    if c.configTarget = none ∨ c.snapshotRef ≠ "" ∨ c.snapshotSHA256 ≠ "" then none else some none
  | .unknown => none

def clientUnmutated (d : Disk) (rec : Record) (c : Client) : Bool :=
  match w.mutator rec c with
  | none => false
  | some mutator =>
    match comparedSubtree w d rec c mutator with
    | none => false
    | some subtree =>
      match mutator.classifyEntryUnderLock rec c subtree with
      | some .restoreDone => true
      | some .genuineConflict => decide (c.originalState ≠ .present)
      | _ => false

def adoptRowProvablyUnmutated (d : Disk) (rec : Record) : Bool :=
  !adoptRecordHasSharedStdioTarget rec && rec.clients.all (clientUnmutated w d rec)

inductive RowVerdict
  | recoveryKeep | committedKeep | crashReap
  deriving DecidableEq

def classifyDeadAdoptingRow (rec : Record) : RowVerdict :=
  if rec.projectService || adoptRecordHasSharedStdioTarget rec then .recoveryKeep
  else if rec.adoptClients.any (fun c => w.live rec c ≠ .absent ∧ w.live rec c ≠ .entry false) then
    .committedKeep
  else if w.adoptManifestExists rec.manifestName ≠ some false then .committedKeep
  else if rec.providerSource = some "disable_planned" ∨ rec.providerSource = some "disable_applied"
    then .recoveryKeep
  else .crashReap

def removeAdoptSnapshots (files : List File) (manifestName : String) : List File :=
  files.filter (fun f => f.manifest ≠ manifestName)

def removeAdoptSnapshotsBeforeRow (files : List File) (manifestName : String)
    (keepProviderPhase : Bool) : List File :=
  files.filter (fun f => f.manifest ≠ manifestName ∨ keepProviderPhase ∧ f.leaf = .installPhase)

inductive CleanupError
  | serviceOperationRequired | writeStore
  deriving DecidableEq

/-- How an abort and a reap end: the snapshots, the rows (which stay when the store is not written),
the phase. -/
def Disk.cleanUp (d : Disk) (manifestName : String) (keepProviderPhase written : Bool) :
    Disk × Option CleanupError :=
  let files := removeAdoptSnapshotsBeforeRow d.files manifestName keepProviderPhase
  if !written then ({ d with files := files }, some .writeStore)
  else (⟨d.records.filter (fun r => r.manifestName ≠ manifestName),
    if keepProviderPhase then removeAdoptSnapshots files manifestName else files⟩, none)

def abortAdoptProvenance (d : Disk) (rec : Record) (written : Bool) : Disk × Option CleanupError :=
  let own := d.records.filter (fun r => r.manifestName = rec.manifestName)
  if rec.manifestName = "" then (d, none)
  else if rec.projectService || own.any (·.projectService) then (d, some .serviceOperationRequired)
  else d.cleanUp rec.manifestName (own.any (·.providerSource.isSome)) written

def reapAdoptProvenanceRow (d : Disk) (manifestName : String) (expectedState : OperationState)
    (expectedUpdatedAt : ℤ) (written : Bool) : Disk × Option CleanupError :=
  match d.records.find? (fun r => r.manifestName = manifestName ∧
      r.operationState = expectedState ∧ r.updatedAt = expectedUpdatedAt) with
  | none => (d, none)
  | some r =>
    if r.projectService then (d, some .serviceOperationRequired)
    else d.cleanUp manifestName r.providerSource.isSome written

inductive Lease
  | acquired | held | pathError
  deriving DecidableEq

structure Pass where
  cutoff : ℤ
  lease : String → Lease
  written : String → Bool

def gcReaps (pass : Pass) (d : Disk) (candidate : Record) : Option Record :=
  if pass.lease candidate.manifestName ≠ .acquired then none
  else (d.records.find? (fun r => r.manifestName = candidate.manifestName)).filter (fun live =>
    live.operationState = .adopting ∧ live.updatedAt = candidate.updatedAt ∧
      live.updatedAt < pass.cutoff ∧ classifyDeadAdoptingRow w live = .crashReap ∧
      w.adoptManifestExists live.manifestName = some false ∧ adoptRowProvablyUnmutated w d live)

def gcCandidate (pass : Pass) (d : Disk) (candidate : Record) : Disk :=
  match gcReaps w pass d candidate with
  | none => d
  | some live =>
    (reapAdoptProvenanceRow d live.manifestName .adopting live.updatedAt
      (pass.written live.manifestName)).1

def gcRowless (pass : Pass) (rowManifests : List String) (d : Disk) (manifestName : String) : Disk :=
  if manifestName ∈ rowManifests ∨ pass.lease manifestName ≠ .acquired ∨
      manifestName ∈ d.records.map Record.manifestName then d
  else { d with files := removeAdoptSnapshots d.files manifestName }

def gcOrphanedAdoptingProvenance (pass : Pass) (d : Disk) : Disk :=
  let candidates := d.records.filter (fun r =>
    !r.projectService ∧ r.operationState = .adopting ∧ r.updatedAt < pass.cutoff)
  let reaped := candidates.foldl (gcCandidate w pass) d
  (reaped.files.map File.manifest).dedup.foldl
    (gcRowless pass (d.records.map Record.manifestName)) reaped

inductive Refusal
  | committed (state : OperationState)
  | serviceOperationRequired | providerRecoveryRequired | committedInstall | priorConfigMutated
  deriving DecidableEq

def priorRefusal (d : Disk) (rec : Record) : Option Refusal :=
  if rec.operationState ≠ .adopting then some (.committed rec.operationState)
  else if rec.projectService then some .serviceOperationRequired
  else
    match classifyDeadAdoptingRow w rec with
    | .recoveryKeep => some .providerRecoveryRequired
    | .committedKeep => some .committedInstall
    | .crashReap => if adoptRowProvablyUnmutated w d rec then none else some .priorConfigMutated

def captureRefusal (d : Disk) (manifestName : String) : Option Refusal :=
  (d.records.filter (fun r => r.manifestName = manifestName)).findSome? (priorRefusal w d)

/-- What is left when an abort or a reap of the row has removed the snapshots and does not write the
store. -/
def Interrupted (d : Disk) (row : Record) (left : Disk) : Prop :=
  abortAdoptProvenance d row false = (left, some .writeStore) ∨
    reapAdoptProvenanceRow d row.manifestName .adopting row.updatedAt false =
      (left, some .writeStore)

variable {w} {pass : Pass} {d left : Disk} {row candidate : Record}

theorem cleanUp_records (d : Disk) (manifestName : String) (keep written : Bool) :
    (d.cleanUp manifestName keep written).1.records =
      d.records.filter (fun r => !written || r.manifestName ≠ manifestName) := by
  cases written
  · exact (filter_eq_self.mpr (fun _ _ => rfl)).symm
  · rfl

theorem Interrupted.left_eq (interrupted : Interrupted d row left) : ∃ keep,
    left = { d with files := removeAdoptSnapshotsBeforeRow d.files row.manifestName keep } := by
  obtain stopped | stopped := interrupted
  · unfold abortAdoptProvenance at stopped
    dsimp only at stopped
    split_ifs at stopped
    · cases stopped
    · cases stopped
    · exact ⟨_, (congrArg Prod.fst stopped).symm⟩
  · unfold reapAdoptProvenanceRow at stopped
    split at stopped
    · cases stopped
    · split_ifs at stopped
      · cases stopped
      · exact ⟨_, (congrArg Prod.fst stopped).symm⟩

theorem Interrupted.records (interrupted : Interrupted d row left) : left.records = d.records := by
  obtain ⟨keep, rfl⟩ := interrupted.left_eq
  rfl

def NoSnapshot (manifestName : String) (files : List File) : Prop :=
  ∀ f ∈ files, f.manifest = manifestName → ∀ client, f.leaf ≠ .snapshot client

theorem NoSnapshot.filter {manifestName : String} {files : List File} (keep : File → Bool)
    (bare : NoSnapshot manifestName files) : NoSnapshot manifestName (files.filter keep) :=
  fun f listed => bare f (mem_filter.mp listed).1

theorem Interrupted.noSnapshot (interrupted : Interrupted d row left) :
    NoSnapshot row.manifestName left.files := by
  obtain ⟨keep, rfl⟩ := interrupted.left_eq
  intro f listed named client snapshot
  have stays := (mem_filter.mp listed).2
  simp [named, snapshot] at stays

theorem not_unmutated_of_pinned {c : Client} (listed : c ∈ row.clients)
    (present : c.originalState = .present) (bare : NoSnapshot row.manifestName d.files) :
    adoptRowProvablyUnmutated w d row = false := by
  have missing : d.files.find? (fun f => f.manifest = row.manifestName ∧
      f.leaf = .snapshot c.client) = none := by
    rw [find?_eq_none]
    intro f inside both
    have both := of_decide_eq_true both
    exact bare f inside both.1 c.client both.2
  have unproved : ∀ mutator, comparedSubtree w d row c mutator = none := by
    intro mutator
    unfold comparedSubtree readDeAdoptSnapshot
    rw [present, missing]
    dsimp only
    split_ifs <;> rfl
  have mutated : clientUnmutated w d row c = false := by
    unfold clientUnmutated
    cases w.mutator row c with
    | none => rfl
    | some mutator => simp [unproved mutator]
  unfold adoptRowProvablyUnmutated
  rw [Bool.and_eq_false_iff, all_eq_false]
  exact .inr ⟨c, listed, by simp [mutated]⟩

theorem unmutated_of_unpinned (unpinned : ∀ c ∈ row.clients, c.originalState ≠ .present)
    (d left : Disk) : adoptRowProvablyUnmutated w left row = adoptRowProvablyUnmutated w d row := by
  have compared : ∀ c ∈ row.clients, clientUnmutated w left row c = clientUnmutated w d row c := by
    intro c listed
    unfold clientUnmutated comparedSubtree
    cases state : c.originalState with
    | present => exact absurd state (unpinned c listed)
    | _ => rfl
  unfold adoptRowProvablyUnmutated
  rw [Bool.eq_iff_iff, Bool.and_eq_true, Bool.and_eq_true, all_eq_true, all_eq_true]
  exact and_congr_right (fun _ => forall₂_congr (fun c listed => by rw [compared c listed]))

theorem gcReaps_iff : gcReaps w pass d candidate = some row ↔
    pass.lease candidate.manifestName = .acquired ∧
      d.records.find? (fun r => r.manifestName = candidate.manifestName) = some row ∧
      row.operationState = .adopting ∧ row.updatedAt = candidate.updatedAt ∧
      row.updatedAt < pass.cutoff ∧ classifyDeadAdoptingRow w row = .crashReap ∧
      w.adoptManifestExists row.manifestName = some false ∧
      adoptRowProvablyUnmutated w d row = true := by
  unfold gcReaps
  by_cases free : pass.lease candidate.manifestName = .acquired
  · rw [if_neg (not_not.mpr free), Option.filter_eq_some_iff, decide_eq_true_iff]
    exact (and_iff_right free).symm
  · rw [if_pos free]
    exact ⟨nofun, fun all => absurd all.1 free⟩

theorem crashReap_unserved (crash : classifyDeadAdoptingRow w row = .crashReap) :
    row.projectService = false := by
  unfold classifyDeadAdoptingRow at crash
  split_ifs at crash with kept
  simp only [Bool.or_eq_true, not_or, Bool.not_eq_true] at kept
  exact kept.1

theorem gcCandidate_records (w : World) (pass : Pass) (d : Disk) (candidate : Record) :
    ∃ keep : String → Bool,
      (gcCandidate w pass d candidate).records = d.records.filter (fun r => keep r.manifestName) := by
  have all : d.records = d.records.filter (fun _ => true) :=
    (filter_eq_self.mpr (fun _ _ => rfl)).symm
  unfold gcCandidate reapAdoptProvenanceRow
  split
  · exact ⟨fun _ => true, all⟩
  · split
    · exact ⟨fun _ => true, all⟩
    · split_ifs
      · exact ⟨fun _ => true, all⟩
      · exact ⟨fun m => !pass.written _ || m ≠ _, cleanUp_records _ _ _ _⟩

theorem gcCandidate_drops (reaps : gcReaps w pass d row = some row)
    (written : pass.written row.manifestName = true) : row ∉ (gcCandidate w pass d row).records := by
  obtain ⟨_, found, adopting, _, _, crash, _⟩ := gcReaps_iff.mp reaps
  have matched : d.records.find? (fun r => r.manifestName = row.manifestName ∧
      r.operationState = .adopting ∧ r.updatedAt = row.updatedAt) = some row := by
    obtain ⟨_, before, after, split, others⟩ := List.find?_eq_some_iff_append.mp found
    refine List.find?_eq_some_iff_append.mpr ⟨by simp [adopting], before, after, split, ?_⟩
    intro r listed
    have named := others r listed
    simp only [Bool.not_eq_true', decide_eq_false_iff_not] at named ⊢
    exact fun own => named own.1
  unfold gcCandidate
  rw [reaps]
  unfold reapAdoptProvenanceRow
  dsimp only
  rw [matched]
  dsimp only
  rw [if_neg (by simp [crashReap_unserved crash]), cleanUp_records, written]
  intro listed
  simpa using (mem_filter.mp listed).2

section Unpinned

variable {now : Disk} {keep : String → Bool} (reaps : gcReaps w pass d row = some row)
  (unpinned : ∀ c ∈ row.clients, c.originalState ≠ .present)

include reaps unpinned

theorem gcReaps_filtered (shrunk : now.records = d.records.filter (fun r => keep r.manifestName))
    (kept : keep row.manifestName = true) : gcReaps w pass now row = some row := by
  obtain ⟨free, found, adopting, same, aged, crash, absent, unmutated⟩ := gcReaps_iff.mp reaps
  refine gcReaps_iff.mpr ⟨free, ?_, adopting, same, aged, crash, absent, ?_⟩
  · rw [shrunk, List.find?_filter, ← found]
    congr 1
    funext r
    by_cases own : r.manifestName = row.manifestName
    · simp [own, kept]
    · simp [own]
  · rw [unmutated_of_unpinned unpinned d]
    exact unmutated

theorem candidates_drop (written : pass.written row.manifestName = true)
    (candidates : List Record) (keep : String → Bool)
    (shrunk : now.records = d.records.filter (fun r => keep r.manifestName))
    (either : row ∈ candidates ∨ row ∉ now.records) :
    row ∉ (candidates.foldl (gcCandidate w pass) now).records := by
  induction candidates generalizing now keep with
  | nil => exact either.resolve_left not_mem_nil
  | cons c rest ih =>
    obtain ⟨keeps, smaller⟩ := gcCandidate_records w pass now c
    have stays : row ∉ now.records → row ∉ (gcCandidate w pass now c).records := by
      rw [smaller]
      exact fun gone listed => gone (mem_filter.mp listed).1
    have next : row ∈ rest ∨ row ∉ (gcCandidate w pass now c).records := by
      rcases either with listed | gone
      · rcases mem_cons.mp listed with rfl | later
        · by_cases kept : keep row.manifestName = true
          · exact .inr (gcCandidate_drops (gcReaps_filtered reaps unpinned shrunk kept) written)
          · refine .inr (stays ?_)
            rw [shrunk]
            exact fun listed => kept (mem_filter.mp listed).2
        · exact .inl later
      · exact .inr (stays gone)
    refine ih (fun m => keeps m && keep m) ?_ next
    rw [smaller, shrunk, filter_filter]

theorem gc_drops (written : pass.written row.manifestName = true) (records : now.records = d.records) :
    row ∉ (gcOrphanedAdoptingProvenance w pass now).records := by
  obtain ⟨_, found, adopting, _, aged, crash, _⟩ := gcReaps_iff.mp reaps
  unfold gcOrphanedAdoptingProvenance
  refine List.foldlRecOn (motive := fun last : Disk => row ∉ last.records) _ _ ?_ ?_
  · refine candidates_drop reaps unpinned written _ (fun _ => true) ?_ (.inl ?_)
    · rw [records]
      exact (filter_eq_self.mpr (fun _ _ => rfl)).symm
    · rw [records]
      exact mem_filter.mpr ⟨mem_of_find?_eq_some found,
        by simp [adopting, aged, crashReap_unserved crash]⟩
  · intro last gone m _
    unfold gcRowless
    split_ifs <;> exact gone

end Unpinned

section Pinned

variable {now : Disk}

structure Stuck (row : Record) (now : Disk) : Prop where
  found : now.records.find? (fun r => r.manifestName = row.manifestName) = some row
  bare : NoSnapshot row.manifestName now.files

theorem Stuck.cleanUp {manifestName : String} (stuck : Stuck row now)
    (other : manifestName ≠ row.manifestName) (keep written : Bool) :
    Stuck row (now.cleanUp manifestName keep written).1 := by
  refine ⟨?_, ?_⟩
  · rw [cleanUp_records, find?_filter, ← stuck.found]
    congr 1
    funext r
    by_cases own : r.manifestName = row.manifestName
    · simp [own, other.symm]
    · simp [own]
  · unfold Disk.cleanUp
    dsimp only
    split_ifs
    · exact stuck.bare.filter _
    · exact (stuck.bare.filter _).filter _
    · exact stuck.bare.filter _

theorem Stuck.gcCandidate {c : Client} (listed : c ∈ row.clients)
    (present : c.originalState = .present) (stuck : Stuck row now) (candidate : Record) :
    Stuck row (gcCandidate w pass now candidate) := by
  unfold AdoptCleanup.gcCandidate
  cases reaped : gcReaps w pass now candidate with
  | none => exact stuck
  | some live =>
    obtain ⟨_, found, _, _, _, _, _, unmutated⟩ := gcReaps_iff.mp reaped
    have other : live.manifestName ≠ row.manifestName := by
      intro own
      have named : live.manifestName = candidate.manifestName := by simpa using find?_some found
      rw [← named, own, stuck.found] at found
      obtain rfl := Option.some.inj found
      rw [not_unmutated_of_pinned listed present stuck.bare] at unmutated
      cases unmutated
    dsimp only
    unfold reapAdoptProvenanceRow
    split
    · exact stuck
    · split_ifs
      · exact stuck
      · exact stuck.cleanUp other _ _

theorem gc_keeps {c : Client} (listed : c ∈ row.clients) (present : c.originalState = .present)
    (stuck : Stuck row now) : row ∈ (gcOrphanedAdoptingProvenance w pass now).records := by
  unfold gcOrphanedAdoptingProvenance
  have reaped := List.foldlRecOn (motive := fun last : Disk => Stuck row last)
    (now.records.filter (fun r =>
      !r.projectService ∧ r.operationState = .adopting ∧ r.updatedAt < pass.cutoff))
    (AdoptCleanup.gcCandidate w pass) stuck
    (fun _ stuck candidate _ => stuck.gcCandidate listed present candidate)
  refine List.foldlRecOn (motive := fun last : Disk => row ∈ last.records) _ _ ?_ ?_
  · exact mem_of_find?_eq_some reaped.found
  · intro last inside m _
    unfold gcRowless
    split_ifs <;> exact inside

end Pinned

theorem priorRefusal_of_crashReap (adopting : row.operationState = .adopting)
    (crash : classifyDeadAdoptingRow w row = .crashReap) : priorRefusal w d row =
      if adoptRowProvablyUnmutated w d row then none else some .priorConfigMutated := by
  unfold priorRefusal
  rw [if_neg (not_not.mpr adopting), crashReap_unserved crash, crash]
  rfl

/-- After an interrupted cleanup of the row, a pass that would have reaped it drops it, and a
capture passes over it, exactly when no client of it was present. -/
theorem interrupted_cleanup_completed {w : World} {d left : Disk} {row : Record}
    (interrupted : Interrupted d row left) (pass : Pass) (reaps : gcReaps w pass d row = some row) :
    (pass.written row.manifestName = true →
        (row ∉ (gcOrphanedAdoptingProvenance w pass left).records ↔
          ∀ c ∈ row.clients, c.originalState ≠ .present)) ∧
      (priorRefusal w left row = none ↔ ∀ c ∈ row.clients, c.originalState ≠ .present) ∧
      ((∀ c ∈ row.clients, c.originalState ≠ .present) →
        ∀ refusal, captureRefusal w left row.manifestName = some refusal →
          ∃ other ∈ left.records, other ≠ row ∧ priorRefusal w left other = some refusal) := by
  obtain ⟨_, first, adopting, _, _, crash, _, unmutated⟩ := gcReaps_iff.mp reaps
  have passes (unpinned : ∀ c ∈ row.clients, c.originalState ≠ .present) :
      priorRefusal w left row = none := by
    rw [priorRefusal_of_crashReap adopting crash, unmutated_of_unpinned unpinned d, unmutated]
    rfl
  refine ⟨fun written => ⟨?_, ?_⟩, ⟨?_, passes⟩, ?_⟩
  · intro dropped c listed present
    have stuck : Stuck row left := ⟨interrupted.records ▸ first, interrupted.noSnapshot⟩
    exact dropped (gc_keeps listed present stuck)
  · exact fun unpinned => gc_drops reaps unpinned written interrupted.records
  · intro open_ c listed present
    rw [priorRefusal_of_crashReap adopting crash,
      not_unmutated_of_pinned listed present interrupted.noSnapshot] at open_
    cases open_
  · intro unpinned refusal refused
    obtain ⟨other, listed, found⟩ := exists_of_findSome?_eq_some refused
    refine ⟨other, (mem_filter.mp listed).1, ?_, found⟩
    rintro rfl
    rw [passes unpinned] at found
    cases found

def untouchedWorld : World where
  live := fun _ _ => .entry false
  mutator := fun _ _ => some ⟨fun snapshot _ => some snapshot, fun _ _ _ => some .restoreDone⟩
  adoptManifestExists := fun _ => some false
  manifestHashContent := fun content => content
  validSnapshotClientName := fun _ => true
  validSnapshotDir := fun _ => true

def rowOf (state : OriginalState) : Record :=
  ⟨"memory", "memory", ["codex-cli"], .adopting, 0,
    [{ client := "codex-cli", originalState := state, snapshotSHA256 := "entry" }], none, false⟩

def diskOf (state : OriginalState) : Disk :=
  ⟨[rowOf state], [⟨"memory", .snapshot "codex-cli", some "entry"⟩]⟩

def latePass : Pass := ⟨1, fun _ => .acquired, fun _ => true⟩

theorem interrupted_cleanup_completed_absent :
    rowOf .absent ∉ (gcOrphanedAdoptingProvenance untouchedWorld latePass
      (abortAdoptProvenance (diskOf .absent) (rowOf .absent) false).1).records :=
  have stopped : Interrupted (diskOf .absent) (rowOf .absent)
      (abortAdoptProvenance (diskOf .absent) (rowOf .absent) false).1 := .inl (by decide)
  ((interrupted_cleanup_completed stopped latePass (by decide)).1 rfl).mpr (by decide)

/-- A row whose client was present is reaped. Once its snapshot is gone, the same pass keeps it, and
a capture is refused. -/
theorem removed_snapshot_keeps_row :
    gcReaps untouchedWorld latePass (diskOf .present) (rowOf .present) = some (rowOf .present) ∧
      ∃ left, left = (abortAdoptProvenance (diskOf .present) (rowOf .present) false).1 ∧
        left = (reapAdoptProvenanceRow (diskOf .present) "memory" .adopting 0 false).1 ∧
        rowOf .present ∈ (gcOrphanedAdoptingProvenance untouchedWorld latePass left).records ∧
        captureRefusal untouchedWorld left "memory" = some .priorConfigMutated := by
  refine ⟨by decide, _, rfl, ?_⟩
  decide

end McpLocalHub.Api.AdoptCleanup
