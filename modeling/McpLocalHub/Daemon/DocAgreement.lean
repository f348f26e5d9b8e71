/- Module: Daemon/DocAgreement
   source: internal/daemon/lazy_proxy.go
   digest: When the open counts agree with what the language server holds open, along every run.
   -/

import McpLocalHub.Daemon.DocLifecycle

set_option autoImplicit false

namespace McpLocalHub.Daemon.DocLifecycle

open Foundation.Maps Foundation.Runs

/-- A teardown has reset the counts of the backend that it has yet to stop. -/
def System.drains (s : System) : Bool := decide (s.teardown = some .stopping)

/-- With no notification in progress, and no teardown between the reset and the stop, the counts say
which documents the backend holds open. What it accepted for a document are opens and closes in
turn. -/
structure Agreed (s : System) : Prop where
  counts : s.notifications = ∅ → s.drains = false →
    ∀ uri, 0 < s.docRefs.count uri ↔ s.holds uri = true
  turns : ∀ b, s.backend = some b → ∀ uri, ∃ next, Alternating (b.history uri) next

def Stage.undecided : Stage → Bool
  | .severing _ => false
  | _ => true

/-- The counts hold the change of the notification, and the backend may not have seen it. -/
def System.pending (s : System) (a : Notification) : Bool :=
  decide (a.docEpoch = s.docRefs.epoch) && a.stage.undecided

variable {s t : System} {a : Notification} {id generation n : ℕ} {uri : String}

theorem System.pending_iff :
    s.pending a = true ↔ a.docEpoch = s.docRefs.epoch ∧ a.stage.undecided = true := by
  simp [System.pending]

/-- A notification is counted only while none is pending for the document, and the counts are reset
only while none stands between its count and its endpoint. -/
def Undisturbed (s : System) : Action → Prop
  | .notify _ uri _ =>
    count (fun a => decide (a.uri = uri) && s.pending a) s.notifications = 0
  | .resetDocRefs => count (fun a => decide (a.stage = .counted)) s.notifications = 0
  | _ => True

instance (s : System) (action : Action) : Decidable (Undisturbed s action) := by
  unfold Undisturbed
  split <;> infer_instance

def System.running (s : System) : Option ℕ := s.backend.map Backend.id

/-- What the counts speak of: the running backend, or, once they are reset, the one after it. -/
def System.tracks (s : System) (uri : String) : Bool := !s.drains && s.holds uri

def System.lag (s : System) : ℕ := if s.drains then 1 else 0

def System.faces (s : System) (a : Notification) : Prop :=
  ∃ id generation, a.stage = .materialized id generation ∧ s.running = some id

/-- The count of a pending notification's document is ahead of the backend by that notification. -/
def Waits (s : System) (a : Notification) : Prop :=
  s.docRefs.count a.uri = (if a.isOpen then 1 else 0) ∧ s.tracks a.uri = !a.isOpen

structure Consistent (s : System) : Prop where
  single : ∀ m n a b, s.notifications.lookup m = some a → s.notifications.lookup n = some b →
    s.pending a = true → s.pending b = true → a.uri = b.uri → m = n
  waits : ∀ n a, s.notifications.lookup n = some a → s.pending a = true → Waits s a
  settled : ∀ uri, (∀ n a, s.notifications.lookup n = some a → s.pending a = true → a.uri ≠ uri) →
    (0 < s.docRefs.count uri ↔ s.tracks uri = true)
  epochs : ∀ n a, s.notifications.lookup n = some a → a.docEpoch ≤ s.docRefs.epoch
  uncounted : ∀ n a, s.notifications.lookup n = some a → a.stage = .counted →
    a.docEpoch = s.docRefs.epoch
  /-- The backend of a notification runs while the counts are of its epoch, and until it is stopped
  after the reset. -/
  attached : ∀ n a id generation, s.notifications.lookup n = some a →
    a.stage = .materialized id generation →
    id < s.nextBackend ∧ a.docEpoch + s.lag ≤ s.docRefs.epoch ∧
      (s.running = some id ↔ a.docEpoch + s.lag = s.docRefs.epoch)
  /-- Of the notifications that the backend may still take, no two are for one document, and each is
  next in turn. -/
  alone : ∀ m n a b, s.notifications.lookup m = some a → s.notifications.lookup n = some b →
    s.faces a → s.faces b → a.uri = b.uri → m = n
  inTurn : ∀ n a, s.notifications.lookup n = some a → s.faces a → s.holds a.uri = !a.isOpen
  known : ∀ id, s.running = some id → id < s.nextBackend
  endpoint : ∀ id, s.endpoint = some id → s.running = some id
  taken : s.reaping = true → s.endpoint = none
  turns : ∀ b, s.backend = some b → ∀ uri, ∃ next, Alternating (b.history uri) next

theorem System.tracks_of_not_drains (still : s.drains = false) (uri : String) :
    s.tracks uri = s.holds uri := by
  simp [System.tracks, still]

theorem System.lag_eq_zero (still : s.drains = false) : s.lag = 0 := by
  simp [System.lag, still]

theorem System.not_drains (idle : s.reaping = false) : s.drains = false := by
  have none : s.teardown = none := by simpa [System.reaping] using idle
  simp [System.drains, none]

theorem Consistent.not_drains (consistent : Consistent s) {id : ℕ} (present : s.endpoint = some id) :
    s.drains = false := by
  apply System.not_drains
  by_contra reaping
  rw [consistent.taken (by simpa using reaping)] at present
  cases present

theorem Consistent.pending_of_faces (consistent : Consistent s) (still : s.drains = false)
    (found : s.notifications.lookup n = some a) (faces : s.faces a) : s.pending a = true := by
  obtain ⟨id, generation, stands, running⟩ := faces
  have current := (consistent.attached n a id generation found stands).2.2.mp running
  rw [System.lag_eq_zero still] at current
  exact System.pending_iff.mpr ⟨current, by rw [stands]; rfl⟩

theorem Started.consistent (started : Started s) : Consistent s := by
  subst started
  constructor
  case settled => exact fun _ _ => ⟨nofun, nofun⟩
  case taken => exact fun _ => rfl
  all_goals exact nofun

theorem Consistent.agreed (consistent : Consistent s) : Agreed s where
  counts quiet still uri := by
    rw [← System.tracks_of_not_drains still]
    apply consistent.settled uri
    intro n a found
    rw [quiet, AList.lookup_empty] at found
    cases found
  turns := consistent.turns

theorem Consistent.detach (consistent : Consistent s) (still : s.drains = false) (generation : ℕ)
    {teardown : Option Teardown} (other : teardown ≠ some .stopping) :
    Consistent { s with
      endpoint := none, endpointGeneration := generation, teardown := teardown } := by
  have still' : System.drains { s with
      endpoint := none, endpointGeneration := generation, teardown := teardown } = false :=
    decide_eq_false other
  have tracks (uri : String) : System.tracks { s with
      endpoint := none, endpointGeneration := generation, teardown := teardown } uri =
      s.tracks uri :=
    (System.tracks_of_not_drains still' uri).trans (System.tracks_of_not_drains still uri).symm
  have lag : System.lag { s with
      endpoint := none, endpointGeneration := generation, teardown := teardown } = s.lag :=
    (System.lag_eq_zero still').trans (System.lag_eq_zero still).symm
  exact { consistent with
    waits := fun n a found pending =>
      ⟨(consistent.waits n a found pending).1,
        (tracks a.uri).trans (consistent.waits n a found pending).2⟩
    settled := fun uri quiet => by
      rw [tracks uri]
      exact consistent.settled uri quiet
    attached := fun n a id generation found stands => by
      rw [lag]
      exact consistent.attached n a id generation found stands
    endpoint := nofun
    taken := fun _ => rfl }

theorem takeEndpoint_consistent (consistent : Consistent s) (idle : s.reaping = false) :
    Consistent (takeEndpoint s) :=
  consistent.detach (System.not_drains idle) _ (by simp)

theorem onSendFailure_consistent (consistent : Consistent s) (generation : ℕ) :
    Consistent (onSendFailure s generation) := by
  unfold onSendFailure
  split_ifs with unwanted
  · exact consistent
  · exact takeEndpoint_consistent consistent (by simpa using (not_or.mp unwanted).1)

theorem onSendFailure_rows (s : System) (generation : ℕ) :
    (onSendFailure s generation).notifications = s.notifications := by
  unfold onSendFailure takeEndpoint
  split_ifs <;> rfl

theorem startBackend_consistent (consistent : Consistent s) (absent : s.backend = none) :
    Consistent { s with
      backend := some { id := s.nextBackend }, nextBackend := s.nextBackend + 1 } := by
  have stopped : s.running = none := by simp [System.running, absent]
  have same (uri : String) : System.holds { s with
      backend := some { id := s.nextBackend }, nextBackend := s.nextBackend + 1 } uri =
      s.holds uri := by
    simp [System.holds, absent, Backend.holds, Backend.history]
  have tracks (uri : String) : System.tracks { s with
      backend := some { id := s.nextBackend }, nextBackend := s.nextBackend + 1 } uri =
      s.tracks uri := congrArg (fun held => !s.drains && held) (same uri)
  have unfaced (n : ℕ) (a : Notification) (found : s.notifications.lookup n = some a) :
      ¬ System.faces { s with
        backend := some { id := s.nextBackend }, nextBackend := s.nextBackend + 1 } a := by
    rintro ⟨id, generation, stands, runs⟩
    have below := (consistent.attached n a id generation found stands).1
    have fresh : s.nextBackend = id := by simpa [System.running] using runs
    omega
  exact { consistent with
    waits := fun n a found pending =>
      ⟨(consistent.waits n a found pending).1,
        (tracks a.uri).trans (consistent.waits n a found pending).2⟩
    settled := fun uri quiet => by
      rw [tracks uri]
      exact consistent.settled uri quiet
    attached := fun n a id generation found stage => by
      obtain ⟨below, behind, runs⟩ := consistent.attached n a id generation found stage
      have stale : a.docEpoch + s.lag ≠ s.docRefs.epoch := fun current => by
        rw [stopped] at runs
        cases runs.mpr current
      have other : s.nextBackend ≠ id := by omega
      refine ⟨by dsimp only; omega, behind, ?_⟩
      exact iff_of_false (by simpa [System.running] using other) stale
    alone := fun m _ a _ found _ faces => absurd faces (unfaced m a found)
    inTurn := fun n a found faces => absurd faces (unfaced n a found)
    known := fun id runs => by
      have same : s.nextBackend = id := by simpa [System.running] using runs
      dsimp only
      omega
    endpoint := fun id present => by
      have runs := consistent.endpoint id present
      rw [stopped] at runs
      cases runs
    turns := fun b runs uri => by
      cases runs
      exact ⟨true, .nil⟩ }

theorem ensureMaterialized_consistent
    (consistent : Consistent s) (got : ensureMaterialized s = some (id, generation, t)) :
    Consistent t ∧ t.notifications = s.notifications ∧ t.endpoint = some id := by
  unfold ensureMaterialized at got
  split at got
  · rename_i held present
    obtain ⟨rfl, _, rfl⟩ := got
    exact ⟨consistent, rfl, present⟩
  · split at got
    · cases got
    · rename_i idle
      unfold materializeBackend at got
      cases running : s.backend with
      | some b =>
        rw [running] at got
        obtain ⟨rfl, _, rfl⟩ := got
        have runs : s.running = some b.id := by simp [System.running, running]
        refine ⟨{ consistent with
          endpoint := ?_, taken := fun reaping => absurd reaping idle }, rfl, rfl⟩
        rintro id present
        cases present
        exact runs
      | none =>
        rw [running] at got
        obtain ⟨rfl, _, rfl⟩ := got
        refine ⟨{ startBackend_consistent consistent running with
          endpoint := ?_, taken := fun reaping => absurd reaping idle }, rfl, rfl⟩
        rintro id present
        cases present
        rfl

theorem Consistent.advance {s : System} {n : ℕ} {a : Notification} (consistent : Consistent s)
    (found : s.notifications.lookup n = some a) (stage : Stage)
    (before : a.stage.undecided = true) (after : stage.undecided = true)
    (moved : stage ≠ .counted)
    (attached : ∀ id generation, stage = .materialized id generation →
      s.drains = false ∧ s.running = some id ∧ a.docEpoch = s.docRefs.epoch) :
    Consistent (s.put n { a with stage := stage }) := by
  have origin (m : ℕ) (b : Notification)
      (here : (s.put n { a with stage := stage }).notifications.lookup m = some b) :
      ∃ old, s.notifications.lookup m = some old ∧ old.uri = b.uri ∧ old.isOpen = b.isOpen ∧
        old.docEpoch = b.docEpoch ∧ old.stage.undecided = b.stage.undecided := by
    rcases lookup_insert_cases here with ⟨rfl, rfl⟩ | ⟨_, there⟩
    · exact ⟨a, found, rfl, rfl, rfl, before.trans after.symm⟩
    · exact ⟨b, there, rfl, rfl, rfl, rfl⟩
  have pendingOf {old b : Notification} (epoch : old.docEpoch = b.docEpoch)
      (undecided : old.stage.undecided = b.stage.undecided)
      (pending : s.pending b = true) : s.pending old = true := by
    rw [System.pending_iff] at pending ⊢
    rwa [epoch, undecided]
  have own (faces : s.faces { a with stage := stage }) : s.drains = false ∧ s.pending a = true := by
    obtain ⟨id, generation, stands, _⟩ := faces
    obtain ⟨still, _, current⟩ := attached id generation stands
    exact ⟨still, System.pending_iff.mpr ⟨current, before⟩⟩
  exact { consistent with
    single := fun m m' b b' here here' pending pending' same => by
      obtain ⟨old, there, uri, _, epoch, undecided⟩ := origin m b here
      obtain ⟨old', there', uri', _, epoch', undecided'⟩ := origin m' b' here'
      exact consistent.single m m' old old' there there' (pendingOf epoch undecided pending)
        (pendingOf epoch' undecided' pending') (by rw [uri, uri', same])
    waits := fun m b here pending => by
      obtain ⟨old, there, uri, opens, epoch, undecided⟩ := origin m b here
      have waits := consistent.waits m old there (pendingOf epoch undecided pending)
      unfold Waits at waits ⊢
      rw [uri, opens] at waits
      exact waits
    settled := fun uri quiet => by
      apply consistent.settled uri
      intro m b there pending
      by_cases own : m = n
      · subst own
        obtain rfl : a = b := Option.some.inj (found.symm.trans there)
        exact quiet m { a with stage := stage } (AList.lookup_insert _)
          (System.pending_iff.mpr ⟨(System.pending_iff.mp pending).1, after⟩)
      · exact quiet m b ((AList.lookup_insert_ne own).trans there) pending
    epochs := fun m b here => by
      obtain ⟨old, there, _, _, epoch, _⟩ := origin m b here
      exact epoch ▸ consistent.epochs m old there
    uncounted := fun m b here counted => by
      rcases lookup_insert_cases here with ⟨_, rfl⟩ | ⟨_, there⟩
      · exact absurd counted moved
      · exact consistent.uncounted m b there counted
    attached := fun m b id generation here stands => by
      rcases lookup_insert_cases here with ⟨_, rfl⟩ | ⟨_, there⟩
      · obtain ⟨still, running, current⟩ := attached id generation stands
        have settled : a.docEpoch + s.lag = s.docRefs.epoch := by
          rw [System.lag_eq_zero still]
          exact current
        exact ⟨consistent.known id running, Nat.le_of_eq settled, fun _ => settled, fun _ => running⟩
      · exact consistent.attached m b id generation there stands
    alone := fun m m' b b' here here' faces faces' same => by
      rcases lookup_insert_cases here with ⟨rfl, rfl⟩ | ⟨_, there⟩ <;>
        rcases lookup_insert_cases here' with ⟨rfl, rfl⟩ | ⟨_, there'⟩
      · rfl
      · obtain ⟨still, pending⟩ := own faces
        exact consistent.single m m' a b' found there' pending
          (consistent.pending_of_faces still there' faces') same
      · obtain ⟨still, pending⟩ := own faces'
        exact consistent.single m m' b a there found
          (consistent.pending_of_faces still there faces) pending same
      · exact consistent.alone m m' b b' there there' faces faces' same
    inTurn := fun m b here faces => by
      rcases lookup_insert_cases here with ⟨rfl, rfl⟩ | ⟨_, there⟩
      · obtain ⟨still, pending⟩ := own faces
        exact (System.tracks_of_not_drains still a.uri).symm.trans
          (consistent.waits m a found pending).2
      · exact consistent.inTurn m b there faces }

/-- A notification is over, or only has a failure left to report. -/
theorem Consistent.retire (consistent : Consistent s)
    (found : s.notifications.lookup n = some a)
    (rest : ∀ m b, t.notifications.lookup m = some b →
      m ≠ n ∧ s.notifications.lookup m = some b ∨
        b.docEpoch = a.docEpoch ∧ ∃ generation, b.stage = .severing generation)
    (kept : ∀ m b, m ≠ n → s.notifications.lookup m = some b → t.notifications.lookup m = some b)
    (epoch : t.docRefs.epoch = s.docRefs.epoch)
    (others : ∀ uri, (s.pending a = true → uri ≠ a.uri) →
      t.docRefs.count uri = s.docRefs.count uri ∧ t.tracks uri = s.tracks uri)
    (own : s.pending a = true → (0 < t.docRefs.count a.uri ↔ t.tracks a.uri = true))
    (faced : ∀ m b, m ≠ n → s.notifications.lookup m = some b → s.faces b →
      t.holds b.uri = s.holds b.uri)
    (running : t.running = s.running) (next : t.nextBackend = s.nextBackend)
    (endpoint : t.endpoint = s.endpoint) (teardown : t.teardown = s.teardown)
    (turns : ∀ b, t.backend = some b → ∀ uri, ∃ turn, Alternating (b.history uri) turn) :
    Consistent t := by
  have samePending (b : Notification) : t.pending b = s.pending b := by
    simp only [System.pending, epoch]
  have origin (m : ℕ) (b : Notification) (here : t.notifications.lookup m = some b)
      (undecided : b.stage.undecided = true) : m ≠ n ∧ s.notifications.lookup m = some b := by
    rcases rest m b here with there | ⟨_, generation, severing⟩
    · exact there
    · rw [severing] at undecided
      cases undecided
  have facing (m : ℕ) (b : Notification) (here : t.notifications.lookup m = some b)
      (faces : t.faces b) : m ≠ n ∧ s.notifications.lookup m = some b ∧ s.faces b := by
    obtain ⟨id, generation, stands, runs⟩ := faces
    obtain ⟨differs, there⟩ := origin m b here (by rw [stands]; rfl)
    exact ⟨differs, there, id, generation, stands, running ▸ runs⟩
  have lag : t.lag = s.lag := by
    unfold System.lag System.drains
    rw [teardown]
  exact {
    single := fun m m' b b' here here' pending pending' same => by
      obtain ⟨_, there⟩ := origin m b here (System.pending_iff.mp pending).2
      obtain ⟨_, there'⟩ := origin m' b' here' (System.pending_iff.mp pending').2
      exact consistent.single m m' b b' there there' (samePending b ▸ pending)
        (samePending b' ▸ pending') same
    waits := fun m b here pending => by
      obtain ⟨differs, there⟩ := origin m b here (System.pending_iff.mp pending).2
      rw [samePending] at pending
      have apart : s.pending a = true → b.uri ≠ a.uri := fun both same =>
        differs (consistent.single m n b a there found pending both same)
      obtain ⟨sameCount, sameTracks⟩ := others b.uri apart
      unfold Waits
      rw [sameCount, sameTracks]
      exact consistent.waits m b there pending
    settled := fun uri quiet => by
      by_cases mine : s.pending a = true ∧ uri = a.uri
      · rw [mine.2]
        exact own mine.1
      · have apart : s.pending a = true → uri ≠ a.uri := fun both same => mine ⟨both, same⟩
        obtain ⟨sameCount, sameTracks⟩ := others uri apart
        rw [sameCount, sameTracks]
        apply consistent.settled uri
        intro m b there pending same
        by_cases retiring : m = n
        · subst retiring
          obtain rfl : a = b := Option.some.inj (found.symm.trans there)
          exact apart pending same.symm
        · exact quiet m b (kept m b retiring there) ((samePending b).trans pending) same
    epochs := fun m b here => by
      rw [epoch]
      rcases rest m b here with ⟨_, there⟩ | ⟨sameEpoch, _⟩
      · exact consistent.epochs m b there
      · exact sameEpoch ▸ consistent.epochs n a found
    uncounted := fun m b here counted => by
      obtain ⟨_, there⟩ := origin m b here (by rw [counted]; rfl)
      exact epoch ▸ consistent.uncounted m b there counted
    attached := fun m b id generation here stands => by
      obtain ⟨_, there⟩ := origin m b here (by rw [stands]; rfl)
      rw [running, next, epoch, lag]
      exact consistent.attached m b id generation there stands
    alone := fun m m' b b' here here' faces faces' same =>
      consistent.alone m m' b b' (facing m b here faces).2.1 (facing m' b' here' faces').2.1
        (facing m b here faces).2.2 (facing m' b' here' faces').2.2 same
    inTurn := fun m b here faces => by
      obtain ⟨differs, there, before⟩ := facing m b here faces
      rw [faced m b differs there before]
      exact consistent.inTurn m b there before
    known := fun id runs => by
      rw [next]
      exact consistent.known id (running ▸ runs)
    endpoint := fun id present => by
      rw [running]
      exact consistent.endpoint id (endpoint ▸ present)
    taken := fun taken => by
      rw [System.reaping, teardown] at taken
      exact endpoint ▸ consistent.taken taken
    turns := turns }

variable {refs : DocRefs} {isOpen : Bool} {action : Action}

section

variable (consistent : Consistent s)
  (quiet : ∀ n a, s.notifications.lookup n = some a → s.pending a = true → a.uri ≠ uri)

include consistent quiet

theorem Consistent.recount (epoch : refs.epoch = s.docRefs.epoch)
    (others : ∀ other, other ≠ uri → refs.count other = s.docRefs.count other)
    (positive : 0 < refs.count uri ↔ 0 < s.docRefs.count uri) :
    Consistent { s with docRefs := refs } := by
  obtain ⟨counts, same⟩ := refs
  subst epoch
  exact { consistent with
    waits := fun n a found pending => by
      have waits := consistent.waits n a found pending
      exact ⟨(others a.uri (quiet n a found pending)).trans waits.1, waits.2⟩
    settled := fun other settled => by
      have before : 0 < s.docRefs.count other ↔ s.tracks other = true :=
        consistent.settled other settled
      by_cases same : other = uri
      · subst same
        exact positive.trans before
      · rw [← others other same] at before
        exact before }

theorem Consistent.forward
    (unused : s.notifications.lookup n = none) (epoch : refs.epoch = s.docRefs.epoch)
    (others : ∀ other, other ≠ uri → refs.count other = s.docRefs.count other)
    (before : s.docRefs.count uri = if isOpen then 0 else 1)
    (now : refs.count uri = if isOpen then 1 else 0) :
    Consistent ({ s with docRefs := refs }.put n ⟨uri, isOpen, s.docRefs.epoch, .counted⟩) := by
  obtain ⟨counts, same⟩ := refs
  subst epoch
  have settled : 0 < s.docRefs.count uri ↔ s.tracks uri = true := consistent.settled uri quiet
  have tracks : s.tracks uri = !isOpen := by
    rw [before] at settled
    cases isOpen <;> simpa using settled
  have facing (m : ℕ) (b : Notification)
      (here : ({ s with docRefs := ⟨counts, s.docRefs.epoch⟩ }.put n
        ⟨uri, isOpen, s.docRefs.epoch, .counted⟩).notifications.lookup m = some b)
      (faces : s.faces b) : s.notifications.lookup m = some b := by
    rcases lookup_insert_cases here with ⟨rfl, rfl⟩ | ⟨_, there⟩
    · obtain ⟨id, generation, stands, _⟩ := faces
      cases stands
    · exact there
  refine { consistent with
    single := ?_, waits := ?_, settled := ?_, epochs := ?_, uncounted := ?_, attached := ?_
    alone := fun m m' b b' here here' faces faces' =>
      consistent.alone m m' b b' (facing m b here faces) (facing m' b' here' faces') faces faces'
    inTurn := fun m b here faces => consistent.inTurn m b (facing m b here faces) faces }
  · intro m m' b b' here here' pending pending' same
    rcases lookup_insert_cases here with ⟨rfl, rfl⟩ | ⟨_, there⟩ <;>
      rcases lookup_insert_cases here' with ⟨rfl, rfl⟩ | ⟨_, there'⟩
    · rfl
    · exact absurd same.symm (quiet m' b' there' pending')
    · exact absurd same (quiet m b there pending)
    · exact consistent.single m m' b b' there there' pending pending' same
  · intro m b here pending
    rcases lookup_insert_cases here with ⟨rfl, rfl⟩ | ⟨_, there⟩
    · exact ⟨now, tracks⟩
    · have waits := consistent.waits m b there pending
      exact ⟨(others b.uri (quiet m b there pending)).trans waits.1, waits.2⟩
  · intro other idle
    have differs : other ≠ uri := fun same =>
      idle n ⟨uri, isOpen, s.docRefs.epoch, .counted⟩ (AList.lookup_insert _)
        (System.pending_iff.mpr ⟨rfl, rfl⟩) same.symm
    have before : 0 < s.docRefs.count other ↔ s.tracks other = true := by
      apply consistent.settled other
      intro m b there pending
      have apart : m ≠ n := by
        rintro rfl
        rw [unused] at there
        cases there
      exact idle m b ((AList.lookup_insert_ne apart).trans there) pending
    rw [← others other differs] at before
    exact before
  · intro m b here
    rcases lookup_insert_cases here with ⟨rfl, rfl⟩ | ⟨_, there⟩
    · exact le_refl _
    · exact consistent.epochs m b there
  · intro m b here counted
    rcases lookup_insert_cases here with ⟨rfl, rfl⟩ | ⟨_, there⟩
    · rfl
    · exact consistent.uncounted m b there counted
  · intro m b id generation here stands
    rcases lookup_insert_cases here with ⟨rfl, rfl⟩ | ⟨_, there⟩
    · cases stands
    · exact consistent.attached m b id generation there stands

end

theorem notify_consistent
    (consistent : Consistent s) (undisturbed : Undisturbed s (.notify n uri isOpen))
    (unused : s.notifications.lookup n = none) : Consistent (notify s n uri isOpen) := by
  have quiet (m : ℕ) (a : Notification) (found : s.notifications.lookup m = some a)
      (pending : s.pending a = true) : a.uri ≠ uri := by
    intro same
    have positive : 0 < count (fun a => decide (a.uri = uri) && s.pending a) s.notifications :=
      count_pos found (by simp [same, pending])
    have none : count (fun a => decide (a.uri = uri) && s.pending a) s.notifications = 0 :=
      undisturbed
    omega
  unfold notify
  split
  · exact consistent
  · have applied := applyDocRef_applied s.docRefs uri isOpen
    generalize applyDocRef s.docRefs uri isOpen = result at applied
    obtain ⟨answer, refs⟩ := result
    cases applied with
    | refused error => exact consistent
    | absorbed epoch others positive => exact consistent.recount quiet epoch others positive
    | forwarded epoch others before now =>
      exact consistent.forward quiet unused epoch others before now

section

variable (consistent : Consistent s) (found : s.notifications.lookup n = some a)

include consistent found

theorem deliver_consistent {b : Backend} (stands : a.stage = .materialized id generation)
    (runs : s.backend = some b) (same : b.id = id) :
    Consistent ({ s with backend := some (b.accept a.uri a.isOpen) }.done n) := by
  have running : s.running = some id := by simp [System.running, runs, same]
  have faces : s.faces a := ⟨id, generation, stands, running⟩
  have held := consistent.inTurn n a found faces
  have heldNow (uri : String) :
      System.holds ({ s with backend := some (b.accept a.uri a.isOpen) }.done n) uri =
        (b.accept a.uri a.isOpen).holds uri := rfl
  have heldBefore (uri : String) : s.holds uri = b.holds uri := by simp [System.holds, runs]
  have elsewhere (uri : String) (differs : uri ≠ a.uri) :
      System.holds ({ s with backend := some (b.accept a.uri a.isOpen) }.done n) uri =
        s.holds uri := by
    rw [heldNow, heldBefore, b.holds_accept_ne _ differs]
  apply consistent.retire found
  case rest =>
    intro m c here
    exact .inl (lookup_erase_cases here)
  case kept =>
    intro m c differs there
    exact (AList.lookup_erase_ne differs).trans there
  case epoch => rfl
  case others =>
    intro uri apart
    refine ⟨rfl, ?_⟩
    cases draining : s.drains with
    | true =>
      change (!s.drains && _) = (!s.drains && _)
      rw [draining]
      rfl
    | false =>
      have pending := consistent.pending_of_faces draining found faces
      exact congrArg (fun held => !s.drains && held) (elsewhere uri (apart pending))
  case own =>
    intro pending
    obtain ⟨counted, _⟩ := consistent.waits n a found pending
    have still : s.drains = false := by
      have current := (consistent.attached n a id generation found stands).2.2.mp running
      have same := (System.pending_iff.mp pending).1
      by_contra draining
      have ahead : s.lag = 1 := if_pos (by simpa using draining)
      omega
    change 0 < s.docRefs.count a.uri ↔ (!s.drains && (b.accept a.uri a.isOpen).holds a.uri) = true
    rw [counted, still, b.holds_accept]
    cases a.isOpen <;> simp
  case faced =>
    intro m c differs there facing
    exact elsewhere c.uri (fun same => differs (consistent.alone m n c a there found facing faces same))
  case running => simp [System.running, System.done, runs, Backend.accept]
  case next => rfl
  case endpoint => rfl
  case teardown => rfl
  case turns =>
    rintro c isHost uri
    cases isHost
    obtain ⟨turn, turns⟩ := consistent.turns b runs uri
    by_cases own : uri = a.uri
    · subst own
      have last : b.holds a.uri = !turn := turns.last
      have turnIs : turn = a.isOpen := by
        rw [heldBefore, last] at held
        simpa using held
      rw [b.history_accept]
      exact ⟨!a.isOpen, .snoc (turnIs ▸ turns)⟩
    · rw [b.history_accept_ne _ own]
      exact ⟨turn, turns⟩

theorem send_consistent {outcome : SendOutcome} (stands : a.stage = .materialized id generation)
    (sent : send s n a id generation outcome = some t) : Consistent t := by
  have undecided : a.stage.undecided = true := by rw [stands]; rfl
  have toRollback (failed : Option ℕ) :
      Consistent (s.put n { a with stage := .rollingBack failed }) :=
    consistent.advance found _ undecided rfl (by simp) (by simp)
  unfold send at sent
  cases outcome with
  | delivered =>
    dsimp only at sent
    split at sent
    · rename_i b runs
      split at sent
      · rename_i same
        cases sent
        exact deliver_consistent consistent found stands runs same
      · cases sent
    · cases sent
  | tooManyPending | rejected => exact Option.some.inj sent ▸ toRollback none
  | failed => exact Option.some.inj sent ▸ toRollback (some generation)

theorem rollback_consistent {failed : Option ℕ}
    (stands : a.stage = .rollingBack failed) : Consistent (rollback s n a failed) := by
  have refs : (rollback s n a failed).docRefs =
      rollbackDocRef s.docRefs a.uri a.isOpen a.docEpoch := by
    cases failed <;> rfl
  have holds (uri : String) : (rollback s n a failed).holds uri = s.holds uri := by
    cases failed <;> rfl
  have tracks (uri : String) : (rollback s n a failed).tracks uri = s.tracks uri := by
    cases failed <;> rfl
  apply consistent.retire found
  case rest =>
    intro m c here
    cases failed with
    | none => exact .inl (lookup_erase_cases here)
    | some generation =>
      rcases lookup_insert_cases here with ⟨_, rfl⟩ | there
      · exact .inr ⟨rfl, generation, rfl⟩
      · exact .inl there
  case kept =>
    intro m c differs there
    cases failed with
    | none => exact (AList.lookup_erase_ne differs).trans there
    | some generation => exact (AList.lookup_insert_ne differs).trans there
  case epoch => rw [refs, rollbackDocRef_epoch]
  case others =>
    intro uri apart
    refine ⟨?_, tracks uri⟩
    rw [refs]
    by_cases current : a.docEpoch = s.docRefs.epoch
    · have pending : s.pending a = true := System.pending_iff.mpr ⟨current, by rw [stands]; rfl⟩
      exact rollbackDocRef_others s.docRefs a.isOpen a.docEpoch (apart pending)
    · rw [rollbackDocRef_stale a.uri a.isOpen (Ne.symm current)]
  case own =>
    intro pending
    obtain ⟨counted, tracked⟩ := consistent.waits n a found pending
    rw [refs, (System.pending_iff.mp pending).1, rollbackDocRef_undoes counted, tracks, tracked]
    cases a.isOpen <;> simp
  case faced => exact fun _ b _ _ _ => holds b.uri
  case running => cases failed <;> rfl
  case next => cases failed <;> rfl
  case endpoint => cases failed <;> rfl
  case teardown => cases failed <;> rfl
  case turns =>
    have backend : (rollback s n a failed).backend = s.backend := by cases failed <;> rfl
    rw [backend]
    exact consistent.turns

theorem sever_consistent (stands : a.stage = .severing generation) :
    Consistent ((onSendFailure s generation).done n) := by
  have severed := onSendFailure_consistent consistent generation
  rw [← onSendFailure_rows s generation] at found
  have decided : (onSendFailure s generation).pending a ≠ true := by
    rw [Ne, System.pending_iff, stands]
    exact fun undecided => nomatch undecided.2
  exact severed.retire found (fun m b here => .inl (lookup_erase_cases here))
    (fun m b differs there => (AList.lookup_erase_ne differs).trans there) rfl
    (fun _ _ => ⟨rfl, rfl⟩) (fun pending => absurd pending decided) (fun _ _ _ _ _ => rfl)
    rfl rfl rfl rfl severed.turns

theorem stepNotification_consistent
    (moved : stepNotification s n a action = some t) : Consistent t := by
  cases action with
  | materialize m ok =>
    simp only [stepNotification] at moved
    split at moved
    · rename_i stands
      have undecided : a.stage.undecided = true := by rw [stands]; rfl
      split at moved
      · obtain ⟨⟨id, generation, u⟩, got, rfl⟩ := Option.map_eq_some_iff.mp moved
        obtain ⟨kept, rows, present⟩ := ensureMaterialized_consistent consistent got
        rw [← rows] at found
        apply kept.advance found _ undecided rfl (by simp)
        intro host _ same
        cases same
        exact ⟨kept.not_drains present, kept.endpoint id present, kept.uncounted n a found stands⟩
      · cases moved
        exact consistent.advance found _ undecided rfl (by simp) (by simp)
    · cases moved
  | send m outcome =>
    simp only [stepNotification] at moved
    split at moved
    · exact send_consistent consistent found ‹_› moved
    · cases moved
  | rollback m =>
    simp only [stepNotification] at moved
    split at moved
    · exact Option.some.inj moved ▸ rollback_consistent consistent found ‹_›
    · cases moved
  | sever m =>
    simp only [stepNotification] at moved
    split at moved
    · exact Option.some.inj moved ▸ sever_consistent consistent found ‹_›
    · cases moved
  | notify m uri isOpen | reap | resetDocRefs | stopLifecycle | endTeardown => cases moved

end

theorem resetDocRefs_consistent (consistent : Consistent s)
    (undisturbed : Undisturbed s .resetDocRefs) (closing : s.teardown = some .closing) :
    Consistent { s with docRefs := resetDocRefs s.docRefs, teardown := some .stopping } := by
  have gone : s.endpoint = none := consistent.taken (by simp [System.reaping, closing])
  have lag : s.lag = 0 := System.lag_eq_zero (by simp [System.drains, closing])
  have silent (n : ℕ) (a : Notification) (found : s.notifications.lookup n = some a) :
      System.pending { s with
        docRefs := resetDocRefs s.docRefs, teardown := some .stopping } a ≠ true := by
    intro pending
    have older := consistent.epochs n a found
    have newer : a.docEpoch = s.docRefs.epoch + 1 := (System.pending_iff.mp pending).1
    omega
  exact { consistent with
    single := fun m n a b here _ pending => absurd pending (silent m a here)
    waits := fun n a found pending => absurd pending (silent n a found)
    settled := fun uri _ => by
      constructor <;> intro absurdity <;> cases absurdity
    epochs := fun n a found => Nat.le_succ_of_le (consistent.epochs n a found)
    uncounted := fun n a found counted => by
      have positive : 0 < count (fun a => decide (a.stage = .counted)) s.notifications :=
        count_pos found (decide_eq_true counted)
      have none : count (fun a => decide (a.stage = .counted)) s.notifications = 0 := undisturbed
      omega
    attached := fun n a id generation found stands => by
      obtain ⟨below, behind, runs⟩ := consistent.attached n a id generation found stands
      rw [lag] at behind runs
      exact ⟨below, Nat.succ_le_succ behind, runs.trans Nat.succ_inj.symm⟩
    taken := fun _ => gone }

theorem stopLifecycle_consistent (consistent : Consistent s)
    (stopping : s.teardown = some .stopping) :
    Consistent { s with backend := none, teardown := some .stopped } := by
  have gone : s.endpoint = none := consistent.taken (by simp [System.reaping, stopping])
  have draining : s.drains = true := by simp [System.drains, stopping]
  have lag : s.lag = 1 := if_pos draining
  have tracks (uri : String) :
      System.tracks { s with backend := none, teardown := some .stopped } uri = s.tracks uri := by
    rw [System.tracks, System.tracks, draining]
    rfl
  exact { consistent with
    waits := fun n a found pending =>
      ⟨(consistent.waits n a found pending).1,
        (tracks a.uri).trans (consistent.waits n a found pending).2⟩
    settled := fun uri quiet => by
      rw [tracks uri]
      exact consistent.settled uri quiet
    attached := fun n a id generation found stands => by
      obtain ⟨below, behind, _⟩ := consistent.attached n a id generation found stands
      rw [lag] at behind
      exact ⟨below, Nat.le_of_succ_le behind, nofun, fun current => by
        change a.docEpoch = s.docRefs.epoch at current
        omega⟩
    alone := fun _ _ _ _ _ _ faces => by
      obtain ⟨_, _, _, runs⟩ := faces
      cases runs
    inTurn := fun _ _ _ faces => by
      obtain ⟨_, _, _, runs⟩ := faces
      cases runs
    known := nofun
    endpoint := fun id present => by
      rw [gone] at present
      cases present
    taken := fun _ => gone
    turns := nofun }

theorem endTeardown_consistent (consistent : Consistent s)
    (stopped : s.teardown = some .stopped) : Consistent { s with teardown := none } := by
  have gone : s.endpoint = none := consistent.taken (by simp [System.reaping, stopped])
  have still : s.drains = false := by simp [System.drains, stopped]
  have ended := @Consistent.detach s consistent still s.endpointGeneration none nofun
  rwa [← gone] at ended

theorem step_consistent (consistent : Consistent s)
    (undisturbed : Undisturbed s action) (moved : step s action = some t) : Consistent t := by
  cases action with
  | notify n uri isOpen =>
    rw [step] at moved
    split_ifs at moved with used
    cases moved
    exact notify_consistent consistent undisturbed (by simpa using used)
  | materialize n ok | send n outcome | rollback n | sever n =>
    obtain ⟨a, found, stepped⟩ := Option.bind_eq_some_iff.mp moved
    exact stepNotification_consistent consistent found stepped
  | reap =>
    rw [step] at moved
    split_ifs at moved with reaping
    exact Option.some.inj moved ▸ takeEndpoint_consistent consistent (by simpa using reaping)
  | resetDocRefs =>
    rw [step] at moved
    split_ifs at moved with closing
    exact Option.some.inj moved ▸ resetDocRefs_consistent consistent undisturbed closing
  | stopLifecycle =>
    rw [step] at moved
    split_ifs at moved with stopping
    exact Option.some.inj moved ▸ stopLifecycle_consistent consistent stopping
  | endTeardown =>
    rw [step] at moved
    split_ifs at moved with stopped
    exact Option.some.inj moved ▸ endTeardown_consistent consistent stopped

/-- The counts agree with the backend along every run in which no notification is counted on a
pending one and no reset passes one that waits for its endpoint. -/
theorem doc_counts_agree {s : System} (reached : Reachable Started step Undisturbed s) : Agreed s :=
  (reached.invariant (fun _ started => started.consistent)
    (fun _ _ _ consistent undisturbed moved =>
      step_consistent consistent undisturbed moved)).agreed

def undisturbedRun : List Action :=
  [.notify 0 "a" true, .notify 1 "b" true, .materialize 0 true, .send 0 .tooManyPending,
    .rollback 0, .notify 0 "a" true, .materialize 0 true, .send 0 .delivered,
    .materialize 1 true, .send 1 .delivered, .notify 2 "b" true, .notify 3 "b" false,
    .notify 4 "b" false, .materialize 4 true, .send 4 .failed, .rollback 4, .sever 4,
    .resetDocRefs, .notify 5 "b" true, .stopLifecycle, .endTeardown, .materialize 5 true,
    .send 5 .delivered]

theorem doc_counts_agree_replaced :
    ∃ s, Agreed s ∧ s.docRefs.count "b" = 1 ∧ s.holds "b" = true ∧ s.docRefs.count "a" = 0 ∧
      s.docRefs.epoch = 1 := by
  refine (exists_reachable_under step {} undisturbedRun (by rfl) ?_).imp
    (fun s found => ⟨doc_counts_agree found.1, found.2⟩)
  decide +kernel

/-- A second open is absorbed by the first one's count; the backend refuses the first, and the
second stays counted. -/
theorem absorbed_open_outlives_refusal :
    ∃ s, Reachable Started step always s ∧ ¬ Agreed s ∧ s.notifications.keys = [] ∧
      s.drains = false ∧ s.docRefs.count "a" = 1 ∧ s.holds "a" = false ∧ s.backend.isSome = true := by
  refine (exists_reachable step {} [.notify 0 "a" true, .notify 1 "a" true, .materialize 0 true,
    .send 0 .tooManyPending, .rollback 0] (by rfl) (by decide +kernel)).imp
    (fun s found => ⟨found.1, fun agreed => ?_, found.2⟩)
  obtain ⟨_, quiet, still, counted, held, _⟩ := found
  have none : s.notifications = ∅ := by
    apply AList.ext
    exact List.map_eq_nil_iff.mp quiet
  have opened : s.holds "a" = true := (agreed.counts none still "a").mp (by omega)
  rw [held] at opened
  cases opened

end McpLocalHub.Daemon.DocLifecycle
