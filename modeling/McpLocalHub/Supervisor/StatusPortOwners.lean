/- Module: Supervisor/StatusPortOwners
   source: internal/cli/supervise_status.go
   digest: Status calls share one probe of the port owners. -/

import McpLocalHub.Foundation.Runs
import McpLocalHub.Supervisor.TrackerHistory

set_option autoImplicit false

/-!
`Get` takes the lock twice at most. Each critical section is one step, as is what runs outside the
lock: the reads before the first section, the look at the operating system, and the close of the
channel. The tracker moves between any two steps, and inside the second section too, which reads its
generation twice.
-/

namespace McpLocalHub.Supervisor.StatusPortOwners

open Foundation.Runs TrackerHistory

def SameOwners (t u : Tracker) : Prop :=
  ∀ name, (u.entry name).currentPID = (t.entry name).currentPID

def Counted (t u : Tracker) : Prop :=
  (u.ownershipGeneration = t.ownershipGeneration ∧ SameOwners t u) ∨
    (u.ownershipGeneration = t.ownershipGeneration + 1 ∧ ¬SameOwners t u)

section Marks

variable (t : Tracker) (name : String) (change : TrackedEntry → TrackedEntry)
  (keeps : ∀ e, (change e).currentPID = e.currentPID)

include keeps

theorem counted_mark : Counted t (t.mark name change) := by
  refine .inl ⟨rfl, fun task => ?_⟩
  rw [Tracker.mark, entry_put]
  split_ifs with named
  · rw [keeps, entry_congr t named]
  · rfl

theorem counted_markPID (pid : Nat) : Counted t (t.markPID name pid change) := by
  unfold Counted SameOwners
  simp only [entry_markPID]
  by_cases same : (t.entry name).currentPID = pid
  · refine .inl ⟨by rw [Tracker.markPID, Tracker.setCurrentPIDLocked, if_pos same]; rfl, ?_⟩
    intro task
    split_ifs with named
    · rw [keeps, ← entry_congr t named, same]
    · rfl
  · refine .inr ⟨by rw [Tracker.markPID, Tracker.setCurrentPIDLocked, if_neg same]; rfl, ?_⟩
    intro owners
    have moved := owners name
    rw [if_pos rfl, keeps] at moved
    exact same moved.symm

end Marks

theorem counted_remove (t : Tracker) (name : String) : Counted t (t.remove name) := by
  by_cases free : (t.entry name).currentPID = 0
  · refine .inl ⟨if_pos free, fun task => ?_⟩
    rw [entry_remove]
    split_ifs with named
    · rw [← entry_congr t named, free]
    · rfl
  · refine .inr ⟨if_neg free, fun owners => free ?_⟩
    rw [← owners name, entry_remove, if_pos rfl]

theorem counted_apply (t : Tracker) (op : TrackerOp) : Counted t (apply t op) := by
  have unmoved : Counted t t := .inl ⟨rfl, fun _ => rfl⟩
  cases op with
  | exitedIfCurrent name pidGeneration =>
    simp only [apply, Tracker.markExitedIfCurrent]
    split_ifs
    · exact unmoved
    · exact counted_markPID t name exitedEntry (fun _ => rfl) 0
  | clearSpawnHold name =>
    simp only [apply, Tracker.clearSpawnHold]
    split_ifs
    · exact unmoved
    · exact counted_mark t name
        (fun e => { e with spawnHoldReason := "", spawnHoldPath := "" }) (fun _ => rfl)
  | remove name => exact counted_remove t name
  | jobProtection name | spawnHold name => exact counted_mark t name _ (fun _ => rfl)
  | spawned name pid startedAt =>
    exact counted_markPID t name (spawnedEntry startedAt) (fun _ => rfl) pid
  | exited name | backoff name | quarantined name | spawnFailed name
  | spawnFailedPreservePID name =>
    refine counted_markPID t name _ (fun _ => ?_) 0
    rfl

theorem replay_bounds (history : List TrackerOp) (t : Tracker) :
    t.ownershipGeneration ≤ (replay t history).ownershipGeneration ∧
      (replay t history).ownershipGeneration ≤ t.ownershipGeneration + history.length := by
  induction history generalizing t with
  | nil => exact ⟨le_rfl, le_rfl⟩
  | cons op rest ih =>
    have later := ih (apply t op)
    have counted := counted_apply t op
    change _ ≤ (replay (apply t op) rest).ownershipGeneration ∧
      (replay (apply t op) rest).ownershipGeneration ≤ _
    unfold Counted at counted
    rw [List.length_cons]
    omega

theorem replay_unchanged_iff (t : Tracker) (history : List TrackerOp) :
    (replay t history).ownershipGeneration = t.ownershipGeneration ↔
      ∀ k, SameOwners t (replay t (history.take k)) := by
  induction history generalizing t with
  | nil => simp [replay, SameOwners]
  | cons op rest ih =>
    have later := (replay_bounds rest (apply t op)).1
    change (replay (apply t op) rest).ownershipGeneration = _ ↔ _
    obtain ⟨same, owners⟩ | ⟨raised, moved⟩ := counted_apply t op
    · rw [← same, ih (apply t op)]
      constructor
      · intro kept k
        cases k with
        | zero => exact fun _ => rfl
        | succ k => exact fun name => (kept k name).trans (owners name)
      · intro kept k name
        exact (kept (k + 1) name).trans (owners name).symm
    · constructor
      · intro same
        omega
      · intro kept
        exact absurd (kept 1) moved

def generation64 (t : Tracker) : UInt64 := .ofNat t.ownershipGeneration

/-- The fleet's generation is the same at both ends of a history, short of a whole turn of the
counter, exactly when no task had another process in between. -/
theorem generation_unchanged_iff (t : Tracker) (history : List TrackerOp)
    (short : history.length < 2 ^ 64) :
    generation64 (replay t history) = generation64 t ↔
      ∀ k, SameOwners t (replay t (history.take k)) := by
  obtain ⟨low, high⟩ := replay_bounds history t
  rw [← replay_unchanged_iff, generation64, generation64, ← UInt64.toNat_inj,
    UInt64.toNat_ofNat', UInt64.toNat_ofNat']
  omega

def heldBack : List TrackerOp :=
  [.spawnHold "\\memory" "cwd" "D:\\gone", .backoff "\\memory"]

theorem generation_unchanged_held :
    generation64 (replay emptyTracker heldBack) = generation64 emptyTracker ∧
      SameOwners emptyTracker (replay emptyTracker (heldBack.take 1)) := by
  have unchanged : generation64 (replay emptyTracker heldBack) = generation64 emptyTracker := by
    decide +kernel
  exact ⟨unchanged, (generation_unchanged_iff emptyTracker heldBack (by decide)).mp unchanged 1⟩

def statusPortOwnersTTL : Int := 1000000000

/-- What a probe brings: its generation, that of the tracker at the look (read by the proofs only),
and the result. -/
structure Finding where
  gen : Nat
  seen : Nat
  snapshot : List (Int × Int)
  err : Option String
  deriving DecidableEq

structure Coalescer where
  takenAt : Int := 0
  genAtProbe : Nat := 0
  snapshot : List (Int × Int) := []
  err : Option String := none
  inflight : Bool := false
  inflightDone : Option Nat := none

inductive Probe
  | absent
  | started (gen : Nat)
  | looked (finding : Finding)
  | stored
  | closed
  deriving DecidableEq

/-- A call of `Get`. `joined`: it found a probe in flight; `found`: the finding in the cache at its
return. -/
inductive Call
  | absent
  | entered (now : Int) (gen : Nat)
  | waiting (gen : Nat) (joined : Bool) (done : Option Nat)
  | answered (gen : Nat) (joined : Bool) (snapshot : List (Int × Int)) (err : Option String)
      (found : Option Finding)
  deriving DecidableEq

structure System where
  tracker : Tracker := emptyTracker
  cache : Coalescer := {}
  probes : Nat → Probe := fun _ => .absent
  channels : Nat := 0
  calls : Nat → Call := fun _ => .absent
  latest : Option Finding := none

namespace System

def currentGeneration (s : System) : Nat := s.tracker.ownershipGeneration

def startProbeLocked (s : System) (gen : Nat) : System :=
  { s with
    cache := { s.cache with inflight := true, inflightDone := some s.channels }
    probes := Function.update s.probes s.channels (.started gen)
    channels := s.channels + 1 }

def setCall (s : System) (i : Nat) (call : Call) : System :=
  { s with calls := Function.update s.calls i call }

def answer (s : System) (i gen : Nat) (joined : Bool) : System :=
  s.setCall i (.answered gen joined s.cache.snapshot s.cache.err s.latest)

def getFirst (s : System) (i : Nat) (now : Int) (gen : Nat) : System :=
  if s.cache.takenAt ≠ 0 ∧ now - s.cache.takenAt < statusPortOwnersTTL ∧ gen = s.cache.genAtProbe then
    s.answer i gen false
  else if s.cache.takenAt ≠ 0 ∧ gen = s.cache.genAtProbe then
    (if s.cache.inflight then s else s.startProbeLocked gen).answer i gen false
  else if s.cache.inflight then
    s.setCall i (.waiting gen true s.cache.inflightDone)
  else
    (s.startProbeLocked s.currentGeneration).setCall i (.waiting gen false (some s.channels))

def getSecond (s : System) (i gen : Nat) (joined : Bool) (between : List TrackerOp) : System :=
  let moved := { s with tracker := replay s.tracker between }
  (if s.cache.genAtProbe ≠ s.currentGeneration ∧ s.cache.inflight = false then
      moved.startProbeLocked moved.currentGeneration
    else moved).answer i gen joined

def store (s : System) (p : Nat) (finding : Finding) (takenAt : Int) : System :=
  { s with
    cache := {
      takenAt := takenAt
      genAtProbe := finding.gen
      snapshot := finding.snapshot
      err := finding.err
      inflight := false
      inflightDone := if s.cache.inflightDone = some p then none else s.cache.inflightDone }
    probes := Function.update s.probes p .stored
    latest := some finding }

def setProbe (s : System) (p : Nat) (probe : Probe) : System :=
  { s with probes := Function.update s.probes p probe }

end System

inductive Move
  | track (op : TrackerOp)
  | enter (i : Nat) (now : Int)
  | first (i : Nat)
  | second (i : Nat) (between : List TrackerOp)
  | look (p : Nat) (snapshot : List (Int × Int)) (err : Option String)
  | store (p : Nat) (takenAt : Int)
  | close (p : Nat)

def step (s : System) : Move → Option System
  | .track op => some { s with tracker := apply s.tracker op }
  | .enter i now =>
    match s.calls i with
    | .absent => some (s.setCall i (.entered now s.currentGeneration))
    | _ => none
  | .first i =>
    match s.calls i with
    | .entered now gen => some (s.getFirst i now gen)
    | _ => none
  | .second i between =>
    match s.calls i with
    -- a receive from the nil channel never returns
    | .waiting gen joined (some p) =>
      if s.probes p = .closed then some (s.getSecond i gen joined between) else none
    | _ => none
  | .look p snapshot err =>
    match s.probes p with
    | .started gen => some (s.setProbe p (.looked ⟨gen, s.currentGeneration, snapshot, err⟩))
    | _ => none
  | .store p takenAt =>
    match s.probes p with
    | .looked finding => some (s.store p finding takenAt)
    | _ => none
  | .close p => if s.probes p = .stored then some (s.setProbe p .closed) else none

def Probe.running : Probe → Option Nat
  | .started gen => some gen
  | .looked finding => some finding.gen
  | _ => none

def Probe.owes (latest : Option Finding) : Probe → Option Nat
  | .absent => none
  | .started gen => some gen
  | .looked finding => some finding.gen
  | _ => latest.map Finding.gen

def Finding.Within (finding : Finding) (generation : Nat) : Prop :=
  finding.gen ≤ finding.seen ∧ finding.seen ≤ generation

def CallSound (s : System) : Call → Prop
  | .absent => True
  | .entered _ gen => gen ≤ s.currentGeneration
  | .waiting gen joined done =>
    ∃ p g, done = some p ∧ (s.probes p).owes s.latest = some g ∧ (joined = false → gen ≤ g)
  | .answered gen joined snapshot err found =>
    ∃ finding, found = some finding ∧ snapshot = finding.snapshot ∧ err = finding.err ∧
      finding.Within s.currentGeneration ∧ (joined = false → gen ≤ finding.gen)

structure Sound (s : System) : Prop where
  unused : ∀ p, s.channels ≤ p → s.probes p = .absent
  flight : ∀ p g, (s.probes p).running = some g →
    s.cache.inflight = true ∧ s.cache.inflightDone = some p ∧
      g ≤ s.currentGeneration ∧ ∀ finding ∈ s.latest, finding.gen ≤ g
  flying : s.cache.inflight = true →
    ∃ p g, s.cache.inflightDone = some p ∧ (s.probes p).running = some g
  looked : ∀ p finding, s.probes p = .looked finding → finding.Within s.currentGeneration
  cold : s.latest = none → s.cache.takenAt = 0
  cached : ∀ finding ∈ s.latest, finding.Within s.currentGeneration ∧
    finding.gen = s.cache.genAtProbe ∧ finding.snapshot = s.cache.snapshot ∧
      finding.err = s.cache.err
  calls : ∀ i, CallSound s (s.calls i)

variable {s : System}

theorem owes_of_running {probe : Probe} {g : Nat} (running : probe.running = some g)
    (latest : Option Finding) : probe.owes latest = some g := by
  cases probe <;> first | exact running | cases running

theorem unused_update {probes : Nat → Probe} {channels p : Nat} (probe : Probe)
    (unused : ∀ q, channels ≤ q → probes q = .absent) (made : p < channels) :
    ∀ q, channels ≤ q → Function.update probes p probe q = .absent := by
  intro q beyond
  rw [Function.update_of_ne (made.trans_le beyond).ne']
  exact unused q beyond

theorem Sound.made (sound : Sound s) {p : Nat} (present : s.probes p ≠ .absent) :
    p < s.channels :=
  Nat.lt_of_not_le (mt (sound.unused p) present)

theorem CallSound.mono {t : System} {call : Call} (sound : CallSound s call)
    (grows : s.currentGeneration ≤ t.currentGeneration)
    (owed : ∀ p g, (s.probes p).owes s.latest = some g →
      ∃ h, (t.probes p).owes t.latest = some h ∧ g ≤ h) : CallSound t call := by
  cases call with
  | absent => trivial
  | entered now gen => exact le_trans sound grows
  | waiting gen joined done =>
    obtain ⟨p, g, waits, owes, fresh⟩ := sound
    obtain ⟨h, later, newer⟩ := owed p g owes
    exact ⟨p, h, waits, later, fun alone => (fresh alone).trans newer⟩
  | answered gen joined snapshot err found =>
    obtain ⟨finding, kept, map, error, within, fresh⟩ := sound
    exact ⟨finding, kept, map, error, ⟨within.1, within.2.trans grows⟩, fresh⟩

theorem Sound.setCall (sound : Sound s) (i : Nat) {call : Call} (calls : CallSound s call) :
    Sound (s.setCall i call) := by
  have carried : ∀ other, CallSound s other → CallSound (s.setCall i call) other :=
    fun other held => held.mono le_rfl (fun _ g owes => ⟨g, owes, le_rfl⟩)
  refine { sound with calls := fun j => ?_ }
  simp only [System.setCall, Function.update_apply]
  split_ifs
  · exact carried call calls
  · exact carried _ (sound.calls j)

theorem Sound.replay (sound : Sound s) (history : List TrackerOp) :
    Sound { s with tracker := TrackerHistory.replay s.tracker history } := by
  have grows := (replay_bounds history s.tracker).1
  have within : ∀ finding : Finding, finding.Within s.currentGeneration →
      finding.Within (TrackerHistory.replay s.tracker history).ownershipGeneration :=
    fun _ held => ⟨held.1, held.2.trans grows⟩
  refine { sound with flight := ?_, looked := ?_, cached := ?_, calls := ?_ }
  · intro p g running
    obtain ⟨flies, waits, read, newer⟩ := sound.flight p g running
    exact ⟨flies, waits, read.trans grows, newer⟩
  · exact fun p finding held => within finding (sound.looked p finding held)
  · exact fun finding kept => (sound.cached finding kept).imp_left (within finding)
  · exact fun i => (sound.calls i).mono grows (fun _ g owes => ⟨g, owes, le_rfl⟩)

theorem Sound.startProbeLocked (sound : Sound s) {gen : Nat} (idle : ¬s.cache.inflight = true)
    (read : gen ≤ s.currentGeneration) (newer : ∀ finding ∈ s.latest, finding.gen ≤ gen) :
    Sound (s.startProbeLocked gen) := by
  have only : ∀ p g, ((s.startProbeLocked gen).probes p).running = some g →
      p = s.channels ∧ g = gen := by
    intro p g running
    simp only [System.startProbeLocked, Function.update_apply] at running
    split_ifs at running with fresh
    · exact ⟨fresh, (Option.some.inj running).symm⟩
    · exact absurd (sound.flight p g running).1 idle
  refine { sound with unused := ?_, flight := ?_, flying := ?_, looked := ?_, calls := ?_ }
  · exact unused_update _ (fun q beyond => sound.unused q (Nat.le_of_succ_le beyond))
      (Nat.lt_succ_self s.channels)
  · intro p g running
    obtain ⟨rfl, rfl⟩ := only p g running
    exact ⟨rfl, rfl, read, newer⟩
  · intro _
    exact ⟨s.channels, gen, rfl, by simp [System.startProbeLocked, Probe.running]⟩
  · intro p finding looked
    obtain ⟨rfl, -⟩ := only p finding.gen (by rw [looked, Probe.running])
    simp [System.startProbeLocked] at looked
  · intro i
    refine (sound.calls i).mono le_rfl (fun p g owes => ⟨g, ?_, le_rfl⟩)
    have other : p ≠ s.channels := by
      rintro rfl
      rw [sound.unused _ le_rfl] at owes
      cases owes
    simpa only [System.startProbeLocked, Function.update_of_ne other] using owes

theorem Sound.answer (sound : Sound s) (i : Nat) {gen g : Nat} {joined : Bool}
    (held : s.latest.map Finding.gen = some g) (fresh : joined = false → gen ≤ g) :
    Sound (s.answer i gen joined) := by
  obtain ⟨finding, kept, rfl⟩ := Option.map_eq_some_iff.mp held
  obtain ⟨within, -, map, error⟩ := sound.cached finding kept
  exact sound.setCall i ⟨finding, kept, map.symm, error.symm, within, fresh⟩

theorem Sound.cached_le (sound : Sound s) :
    ∀ finding ∈ s.latest, finding.gen ≤ s.currentGeneration :=
  fun finding kept => (sound.cached finding kept).1.1.trans (sound.cached finding kept).1.2

theorem Sound.getFirst (sound : Sound s) (i : Nat) (now : Int) {gen : Nat}
    (read : gen ≤ s.currentGeneration) : Sound (s.getFirst i now gen) := by
  have warm : s.cache.takenAt ≠ 0 → gen = s.cache.genAtProbe →
      s.latest.map Finding.gen = some gen := by
    intro taken same
    obtain ⟨finding, kept⟩ := Option.ne_none_iff_exists'.mp (mt sound.cold taken)
    rw [kept, same, Option.map_some, (sound.cached finding kept).2.1]
  unfold System.getFirst
  split_ifs with served stale flies flies
  · exact sound.answer i (warm served.1 served.2.2) (fun _ => le_rfl)
  · exact sound.answer i (warm stale.1 stale.2) (fun _ => le_rfl)
  · have held := warm stale.1 stale.2
    have newer : ∀ finding ∈ s.latest, finding.gen ≤ gen := by
      rintro finding kept
      rw [kept, Option.map_some] at held
      exact (Option.some.inj held).le
    exact (sound.startProbeLocked flies read newer).answer i held (fun _ => le_rfl)
  · obtain ⟨p, g, waits, running⟩ := sound.flying flies
    exact sound.setCall i ⟨p, g, waits, owes_of_running running _, nofun⟩
  · have started := sound.startProbeLocked flies le_rfl sound.cached_le
    refine started.setCall i ⟨s.channels, s.currentGeneration, rfl, ?_, fun _ => read⟩
    simp [System.startProbeLocked, Probe.owes]

theorem Sound.getSecond (sound : Sound s) (i : Nat) {gen g : Nat} {joined : Bool}
    (between : List TrackerOp) (held : s.latest.map Finding.gen = some g)
    (fresh : joined = false → gen ≤ g) : Sound (s.getSecond i gen joined between) := by
  have moved := sound.replay between
  unfold System.getSecond
  split_ifs with restarts
  · have idle : ¬s.cache.inflight = true := by simp [restarts.2]
    exact (moved.startProbeLocked idle le_rfl moved.cached_le).answer i held fresh
  · exact moved.answer i held fresh

theorem Sound.setProbe (sound : Sound s) {p : Nat} {probe : Probe}
    (present : s.probes p ≠ .absent) (runs : probe.running = (s.probes p).running)
    (owes : probe.owes s.latest = (s.probes p).owes s.latest)
    (within : ∀ finding, probe = .looked finding → finding.Within s.currentGeneration) :
    Sound (s.setProbe p probe) := by
  have same : ∀ f : Probe → Option Nat, f probe = f (s.probes p) →
      ∀ q, f ((s.setProbe p probe).probes q) = f (s.probes q) := by
    intro f kept q
    simp only [System.setProbe, Function.update_apply]
    split_ifs with here
    · rw [kept, here]
    · rfl
  have running := same Probe.running runs
  refine { sound with unused := ?_, flight := ?_, flying := ?_, looked := ?_, calls := ?_ }
  · exact unused_update probe sound.unused (sound.made present)
  · exact fun q g flies => sound.flight q g (running q ▸ flies)
  · intro flies
    obtain ⟨q, g, waits, flown⟩ := sound.flying flies
    exact ⟨q, g, waits, (running q).trans flown⟩
  · intro q finding looked
    simp only [System.setProbe, Function.update_apply] at looked
    split_ifs at looked
    · exact within finding looked
    · exact sound.looked q finding looked
  · intro i
    exact (sound.calls i).mono le_rfl (fun q g owed => ⟨g, (same _ owes q).trans owed, le_rfl⟩)

theorem Sound.store (sound : Sound s) {p : Nat} {finding : Finding}
    (held : s.probes p = .looked finding) (takenAt : Int) :
    Sound (s.store p finding takenAt) := by
  have flies : (s.probes p).running = some finding.gen := by rw [held, Probe.running]
  obtain ⟨-, waits, -, newer⟩ := sound.flight p _ flies
  have landed : ∀ q g, ¬((s.store p finding takenAt).probes q).running = some g := by
    intro q g running
    simp only [System.store, Function.update_apply] at running
    split_ifs at running with here
    · cases running
    · have also := (sound.flight q g running).2.1
      exact here (Option.some.inj (also.symm.trans waits))
  refine ⟨?_, fun q g running => absurd running (landed q g), nofun, ?_, nofun, ?_, ?_⟩
  · exact unused_update _ sound.unused (sound.made (by simp [held]))
  · intro q other looked
    exact absurd (by rw [looked, Probe.running]) (landed q other.gen)
  · rintro _ ⟨⟩
    exact ⟨sound.looked p finding held, rfl, rfl, rfl⟩
  · intro i
    refine (sound.calls i).mono le_rfl (fun q g owes => ?_)
    simp only [System.store, Function.update_apply]
    split_ifs with here
    · rw [here, held] at owes
      exact ⟨finding.gen, rfl, (Option.some.inj owes).ge⟩
    · cases stage : s.probes q <;> rw [stage] at owes
      case stored | closed =>
        obtain ⟨old, kept, rfl⟩ := Option.map_eq_some_iff.mp owes
        exact ⟨finding.gen, rfl, newer old kept⟩
      all_goals exact ⟨g, owes, le_rfl⟩

theorem step_sound (s : System) (move : Move) (next : System) (sound : Sound s)
    (moved : step s move = some next) : Sound next := by
  cases move with
  | track op =>
    cases moved
    exact sound.replay [op]
  | enter i now =>
    simp only [step] at moved
    split at moved <;> cases moved
    exact sound.setCall i le_rfl
  | first i =>
    simp only [step] at moved
    split at moved <;> cases moved
    rename_i now gen entered
    have read := sound.calls i
    rw [entered] at read
    exact sound.getFirst i now read
  | second i between =>
    simp only [step] at moved
    split at moved
    · rename_i gen joined p waiting
      split_ifs at moved with closed
      cases moved
      have call := sound.calls i
      rw [waiting] at call
      obtain ⟨_, g, ⟨⟩, owes, fresh⟩ := call
      rw [closed] at owes
      exact sound.getSecond i between owes fresh
    · cases moved
  | look p snapshot err =>
    simp only [step] at moved
    split at moved <;> cases moved
    rename_i gen started
    have read := (sound.flight p gen (by rw [started, Probe.running])).2.2.1
    refine sound.setProbe (by simp [started]) (by rw [started]; rfl) (by rw [started]; rfl) ?_
    rintro _ ⟨⟩
    exact ⟨read, le_rfl⟩
  | store p takenAt =>
    simp only [step] at moved
    split at moved <;> cases moved
    rename_i finding looked
    exact sound.store looked takenAt
  | close p =>
    simp only [step] at moved
    split_ifs at moved with stored
    cases moved
    exact sound.setProbe (by simp [stored]) (by rw [stored]; rfl) (by rw [stored]; rfl) nofun

theorem initial_sound : Sound {} :=
  ⟨fun _ _ => rfl, nofun, nofun, nofun, fun _ => rfl, nofun, fun _ => trivial⟩

/-- In every interleaving: one probe at most is under way; no call waits for a channel that nobody
closes; and an answer is one whole finding, looked up no earlier than the tracker reached the
generation that the call had read, unless the call joined a probe in flight. -/
theorem status_answers_fresh (s : System) (reached : Reachable (· = {}) step always s) :
    (∀ p q, (s.probes p).running.isSome → (s.probes q).running.isSome → p = q) ∧
      (∀ i gen joined done, s.calls i = .waiting gen joined done →
        ∃ p, done = some p ∧ s.probes p ≠ .absent) ∧
      ∀ i gen joined snapshot err found,
        s.calls i = .answered gen joined snapshot err found → ∃ finding, found = some finding ∧
          snapshot = finding.snapshot ∧ err = finding.err ∧ (joined = false → gen ≤ finding.seen) := by
  have sound : Sound s := reached.invariant (fun _ starts => starts ▸ initial_sound)
    (fun before move after held _ moved => step_sound before move after held moved)
  refine ⟨?_, ?_, ?_⟩
  · intro p q left right
    obtain ⟨g, left⟩ := Option.isSome_iff_exists.mp left
    obtain ⟨h, right⟩ := Option.isSome_iff_exists.mp right
    have waits := (sound.flight p g left).2.1
    exact Option.some.inj (waits.symm.trans (sound.flight q h right).2.1)
  · intro i gen joined done waiting
    have call := sound.calls i
    rw [waiting] at call
    obtain ⟨p, g, waits, owes, -⟩ := call
    refine ⟨p, waits, fun absent => ?_⟩
    rw [absent] at owes
    cases owes
  · intro i gen joined snapshot err found answered
    have call := sound.calls i
    rw [answered] at call
    obtain ⟨finding, kept, map, error, within, fresh⟩ := call
    exact ⟨finding, kept, map, error, fun alone => (fresh alone).trans within.1⟩

theorem status_answers_fresh_spawned_meanwhile :
    ∃ s, (Reachable (· = {}) step always s ∧
        s.calls 0 = .answered 0 false [(9121, 4711)] none (some ⟨0, 1, [(9121, 4711)], none⟩)) ∧
      ∀ p q, (s.probes p).running.isSome → (s.probes q).running.isSome → p = q := by
  refine Exists.imp (fun s held => ⟨held, (status_answers_fresh s held.1).1⟩) ?_
  exact exists_reachable step {}
    [.enter 0 7, .first 0, .track (.spawned "\\memory" 4711 7), .look 0 [(9121, 4711)] none,
      .store 0 8, .close 0, .second 0 []] rfl (by decide +kernel)

end McpLocalHub.Supervisor.StatusPortOwners
