/- Module: Hub/StoreInvariant
   source: internal/api/hub_mcp_session.go
   digest: The structures of the session store agree in every run, and the caps hold. -/

import McpLocalHub.Hub.SessionStore

set_option autoImplicit false

namespace McpLocalHub.Hub.StoreInvariant

open Foundation.Maps Foundation.LinkedList Foundation.Runs SessionStore List AList
open Aggregator (Published Created)

def live (s : HubSessionStore) (client : String) : ℕ :=
  count (fun sess => sess.scopeKey = client) s.sessions

structure Represents (s : HubSessionStore) : Prop where
  keys : ∀ id, id ∈ s.sessions ↔ id ∈ s.lruIndex
  indexed : ∀ id el, s.lruIndex.lookup id = some el ↔ ⟨el, id⟩ ∈ s.lru.elements
  tallies : Tallies s.perClient (live s)

structure Capped (s : HubSessionStore) : Prop where
  perClient : ∀ client, (live s client : ℤ) ≤ s.opts.maxPerClient
  total : (size s.sessions : ℤ) ≤ s.opts.maxGlobal

variable {s : HubSessionStore} {id : String} {sess : HubSession} {opts : SessionStoreOpts}
  {w : World}

theorem Represents.element (rep : Represents s) (found : s.sessions.lookup id = some sess) :
    ∃ el, s.lruIndex.lookup id = some el ∧ ⟨el, id⟩ ∈ s.lru.elements := by
  have present : id ∈ s.sessions := lookup_isSome.mp (by rw [found]; rfl)
  obtain ⟨el, hit⟩ := Option.isSome_iff_exists.mp
    (lookup_isSome.mpr ((rep.keys id).mp present))
  exact ⟨el, hit, (rep.indexed id el).mp hit⟩

theorem Represents.session (rep : Represents s) {e : Element String}
    (listed : e ∈ s.lru.elements) : ∃ sess, s.sessions.lookup e.value = some sess := by
  have hit := (rep.indexed e.value e.handle).mpr listed
  have present : e.value ∈ s.lruIndex := lookup_isSome.mp (by rw [hit]; rfl)
  exact Option.isSome_iff_exists.mp (lookup_isSome.mpr ((rep.keys e.value).mpr present))

theorem Represents.eq_of_value (rep : Represents s) {e f : Element String}
    (first : e ∈ s.lru.elements) (second : f ∈ s.lru.elements) (same : e.value = f.value) :
    e = f := by
  have one := (rep.indexed e.value e.handle).mpr first
  have two := (rep.indexed f.value f.handle).mpr second
  rw [same, two, Option.some.injEq] at one
  exact s.lru.eq_of_handle first second one.symm

theorem Represents.values_nodup (rep : Represents s) : s.lru.values.Nodup :=
  List.Nodup.map_on (fun _ first _ second same => rep.eq_of_value first second same)
    (List.Nodup.of_map _ s.lru.nodup)

theorem Represents.values_perm (rep : Represents s) : s.lru.values.Perm s.sessions.keys := by
  refine (perm_ext_iff_of_nodup rep.values_nodup s.sessions.nodupKeys).mpr ?_
  intro id
  constructor
  · intro listed
    obtain ⟨e, inList, rfl⟩ := mem_map.mp listed
    obtain ⟨sess, found⟩ := rep.session inList
    exact mem_keys_of_lookup found
  · intro key
    have present : id ∈ s.sessions := mem_keys.mpr key
    obtain ⟨sess, found⟩ := Option.isSome_iff_exists.mp (lookup_isSome.mpr present)
    obtain ⟨el, _, inList⟩ := rep.element found
    exact mem_map.mpr ⟨_, inList, rfl⟩

def removed (s : HubSessionStore) (id : String) (sess : HubSession) (el : ℕ) : HubSessionStore where
  opts := s.opts
  sessions := s.sessions.erase id
  perClient := decrement s.perClient sess.scopeKey
  lru := s.lru.remove el
  lruIndex := s.lruIndex.erase id
  deleteStarted := s.deleteStarted ++ [id]

theorem deleteLocked_cases (rep : Represents s) (id : String) :
    s.sessions.lookup id = none ∧ s.deleteLocked id = (false, s) ∨
      ∃ sess el, s.sessions.lookup id = some sess ∧ ⟨el, id⟩ ∈ s.lru.elements ∧
        s.deleteLocked id = (true, removed s id sess el) := by
  unfold HubSessionStore.deleteLocked
  cases found : s.sessions.lookup id with
  | none => exact .inl ⟨rfl, rfl⟩
  | some sess =>
    obtain ⟨el, hit, inList⟩ := rep.element found
    refine .inr ⟨sess, el, rfl, inList, ?_⟩
    rw [hit]
    rfl

theorem live_removed (found : s.sessions.lookup id = some sess) (el : ℕ) (client : String) :
    live (removed s id sess el) client + (if sess.scopeKey = client then 1 else 0) =
      live s client := by
  have parts := count_erase_of_present (fun other => decide (other.scopeKey = client)) found
  simp only [decide_eq_true_iff] at parts
  exact parts

theorem Represents.removed (rep : Represents s) {el : ℕ} (found : s.sessions.lookup id = some sess)
    (inList : ⟨el, id⟩ ∈ s.lru.elements) : Represents (removed s id sess el) := by
  constructor
  case keys =>
    intro other
    change other ∈ s.sessions.erase id ↔ other ∈ s.lruIndex.erase id
    rw [mem_erase, mem_erase, rep.keys other]
  case indexed =>
    intro other handle
    change (s.lruIndex.erase id).lookup other = some handle ↔ _ ∈ (s.lru.remove el).elements
    rw [Chain.mem_remove, ← rep.indexed other handle]
    by_cases same : other = id
    · subst same
      rw [lookup_erase]
      refine ⟨nofun, ?_⟩
      rintro ⟨hit, differs⟩
      have own := (rep.indexed other el).mpr inList
      rw [hit, Option.some.injEq] at own
      exact absurd own differs
    · rw [lookup_erase_ne same]
      refine ⟨fun hit => ⟨hit, ?_⟩, And.left⟩
      intro sameHandle
      have listed := (rep.indexed other handle).mp hit
      have equal := s.lru.eq_of_handle listed inList sameHandle
      exact same (congrArg Element.value equal)
  case tallies =>
    refine rep.tallies.decrement (k := sess.scopeKey) ?_ ?_
    · have parts := live_removed found el sess.scopeKey
      rwa [if_pos rfl] at parts
    · intro client differs
      have parts := live_removed found el client
      rwa [if_neg (Ne.symm differs), Nat.add_zero] at parts

theorem Capped.removed (capped : Capped s) {el : ℕ} (found : s.sessions.lookup id = some sess) :
    Capped (removed s id sess el) := by
  constructor
  · intro client
    have parts := live_removed found el client
    have before := capped.perClient client
    change (live (StoreInvariant.removed s id sess el) client : ℤ) ≤ s.opts.maxPerClient
    omega
  · have parts := size_erase_of_present found
    have before := capped.total
    change (size (s.sessions.erase id) : ℤ) ≤ s.opts.maxGlobal
    omega

theorem evictFrom_eq (load : String → ℤ) {es : List (Element String)}
    (alive : ∀ e ∈ es, ∃ sess, s.sessions.lookup e.value = some sess) :
    s.evictFrom load es =
      match es.find? (fun e => load e.value = 0) with
      | none => (false, s)
      | some e => (true, (s.deleteLocked e.value).2) := by
  induction es with
  | nil => rfl
  | cons e rest ih =>
    obtain ⟨sess, found⟩ := alive e (.head _)
    have later := ih (fun x listed => alive x (.tail _ listed))
    unfold HubSessionStore.evictFrom
    rw [found]
    by_cases idle : load e.value = 0
    · rw [if_pos idle, List.find?_cons_of_pos (by simpa using idle)]
    · rw [if_neg idle, List.find?_cons_of_neg (by simpa using idle), later]

/-- An idle session that ranks below all other idle ones in any ranking that the list follows. -/
structure Victim (s : HubSessionStore) (load : String → ℤ) (victim : String) (sess : HubSession)
    (el : ℕ) : Prop where
  found : s.sessions.lookup victim = some sess
  inList : ⟨el, victim⟩ ∈ s.lru.elements
  idle : load victim = 0
  lowest : ∀ rank, s.lru.Ranked rank →
    ∀ id ∈ s.sessions, load id = 0 → id ≠ victim → rank victim < rank id

theorem evict_cases (rep : Represents s) (load : String → ℤ) :
    (∀ id ∈ s.sessions, load id ≠ 0) ∧ s.evictIdleLRULocked load = (false, s) ∨
      ∃ victim sess el, Victim s load victim sess el ∧
        s.evictIdleLRULocked load = (true, removed s victim sess el) := by
  have listed (id : String) (present : id ∈ s.sessions) :
      ∃ e ∈ s.lru.elements, e.value = id := by
    have key := rep.values_perm.mem_iff.mpr (mem_keys.mp present)
    exact mem_map.mp key
  have walked : s.evictIdleLRULocked load = _ :=
    evictFrom_eq load (fun e inList => rep.session (mem_reverse.mp inList))
  cases found : s.lru.elements.reverse.find? (fun e => load e.value = 0) with
  | none =>
    rw [found] at walked
    refine .inl ⟨?_, walked⟩
    intro id present idle
    obtain ⟨e, inList, rfl⟩ := listed id present
    have busy := List.find?_eq_none.mp found e (mem_reverse.mpr inList)
    exact busy (by simpa using idle)
  | some e =>
    rw [found] at walked
    have inList : e ∈ s.lru.elements := mem_reverse.mp (mem_of_find?_eq_some found)
    have idle : load e.value = 0 := by simpa using List.find?_some found
    rcases deleteLocked_cases rep e.value with ⟨gone, _⟩ | ⟨sess, el, hit, indexed, deleted⟩
    · obtain ⟨sess, hit⟩ := rep.session inList
      rw [gone] at hit
      cases hit
    · refine .inr ⟨e.value, sess, el, ⟨hit, indexed, idle, ?_⟩, ?_⟩
      · intro rank ranked id present idleToo differs
        obtain ⟨x, other, rfl⟩ := listed id present
        refine ranked.lowest found other (by simpa using idleToo) ?_
        intro same
        exact differs (congrArg Element.value same)
      · rw [walked]
        dsimp only
        rw [deleted]

theorem live_register (absent : s.sessions.lookup sess.clientSessionID = none) (client : String) :
    live (s.register sess) client = live s client + if sess.scopeKey = client then 1 else 0 := by
  have parts := count_insert_of_absent (fun other => decide (other.scopeKey = client)) sess absent
  simp only [decide_eq_true_iff] at parts
  exact parts

theorem Represents.register (rep : Represents s)
    (absent : s.sessions.lookup sess.clientSessionID = none) : Represents (s.register sess) := by
  have unlisted (el : ℕ) : ⟨el, sess.clientSessionID⟩ ∉ s.lru.elements := by
    intro inList
    obtain ⟨old, found⟩ := rep.session inList
    rw [absent] at found
    cases found
  constructor
  case keys =>
    intro id
    change id ∈ s.sessions.insert _ _ ↔ id ∈ s.lruIndex.insert _ _
    rw [mem_insert, mem_insert, rep.keys id]
  case indexed =>
    intro id el
    change (s.lruIndex.insert sess.clientSessionID s.lru.next).lookup id = some el ↔
      _ ∈ (⟨s.lru.next, sess.clientSessionID⟩ : Element String) :: s.lru.elements
    rw [mem_cons, ← rep.indexed id el]
    by_cases same : id = sess.clientSessionID
    · subst same
      rw [lookup_insert, rep.indexed, or_iff_left (unlisted el)]
      constructor
      · intro hit
        rw [Option.some.inj hit]
      · intro pushed
        exact congrArg some (congrArg Element.handle pushed).symm
    · rw [lookup_insert_ne same, or_iff_right]
      intro pushed
      exact same (congrArg Element.value pushed)
  case tallies =>
    refine rep.tallies.increment (k := sess.scopeKey) ?_ ?_
    · rw [live_register absent, if_pos rfl]
    · intro client differs
      rw [live_register absent, if_neg (Ne.symm differs), Nat.add_zero]

theorem Capped.register (capped : Capped s) (absent : s.sessions.lookup sess.clientSessionID = none)
    (room : (live s sess.scopeKey : ℤ) < s.opts.maxPerClient)
    (space : (size s.sessions : ℤ) < s.opts.maxGlobal) : Capped (s.register sess) := by
  constructor
  · intro client
    have before := capped.perClient client
    change (live (s.register sess) client : ℤ) ≤ s.opts.maxPerClient
    rw [live_register absent]
    by_cases own : sess.scopeKey = client
    · subst own
      rw [if_pos rfl]
      omega
    · rw [if_neg own]
      omega
  · have grown := size_insert_of_absent sess absent
    change (size (s.sessions.insert sess.clientSessionID sess) : ℤ) ≤ s.opts.maxGlobal
    omega

inductive Creates (s : HubSessionStore) (client : String) (generated : Except String String)
    (load : String → ℤ) (new : String → HubSession) :
    Except CreateError HubSession × HubSessionStore → Prop
  | clientFull (full : s.opts.maxPerClient ≤ (live s client : ℤ)) :
      Creates s client generated load new (.error (.perClientCap s.opts.maxPerClient), s)
  | noID {err : String} (failed : generated = .error err) :
      Creates s client generated load new (.error (.generateSessionID err), s)
  | allBusy (full : s.opts.maxGlobal ≤ (size s.sessions : ℤ))
      (busy : ∀ id ∈ s.sessions, load id ≠ 0) :
      Creates s client generated load new (.error (.globalCap s.opts.maxGlobal), s)
  | room {id : String} (gave : generated = .ok id)
      (roomOfClient : (live s client : ℤ) < s.opts.maxPerClient)
      (space : (size s.sessions : ℤ) < s.opts.maxGlobal) :
      Creates s client generated load new (.ok (new id), s.register (new id))
  | evicted {id victim : String} {sess : HubSession} {el : ℕ} (gave : generated = .ok id)
      (roomOfClient : (live s client : ℤ) < s.opts.maxPerClient)
      (full : s.opts.maxGlobal ≤ (size s.sessions : ℤ))
      (lru : Victim s load victim sess el) :
      Creates s client generated load new
        (.ok (new id), (removed s victim sess el).register (new id))

theorem create_creates (rep : Represents s) (client protoVer : String)
    (snap : Option Published) (generated : Except String String) (now : ℤ) (load : String → ℤ) :
    Creates s client generated load (fun id => ⟨id, client, protoVer, snap, now, now⟩)
      (s.create client protoVer snap generated now load) := by
  unfold HubSessionStore.create
  rw [rep.tallies.getD]
  by_cases full : (live s client : ℤ) ≥ s.opts.maxPerClient
  · rw [if_pos full]
    exact .clientFull full
  · rw [if_neg full]
    cases generated with
    | error err => exact .noID rfl
    | ok id =>
      dsimp only
      by_cases atCap : (size s.sessions : ℤ) ≥ s.opts.maxGlobal
      · rw [if_pos atCap]
        rcases evict_cases rep load with ⟨busy, refused⟩ | ⟨victim, sess, el, lru, evicted⟩
        · rw [refused]
          exact .allBusy atCap busy
        · rw [evicted]
          exact .evicted rfl (by omega) atCap lru
      · rw [if_neg atCap]
        exact .room rfl (by omega) (by omega)

def touched (s : HubSessionStore) (id : String) (sess : HubSession) (now : ℤ) (el : ℕ) :
    HubSessionStore :=
  { s with
    sessions := s.sessions.insert id { sess with lastUsedAt := now }
    lru := s.lru.moveToFront el }

theorem recordActivity_eq (rep : Represents s) (found : s.sessions.lookup id = some sess)
    (now : ℤ) :
    ∃ el, ⟨el, id⟩ ∈ s.lru.elements ∧
      (s.recordActivity id sess now).2 = touched s id sess now el := by
  obtain ⟨el, hit, inList⟩ := rep.element found
  refine ⟨el, inList, ?_⟩
  unfold HubSessionStore.recordActivity
  rw [hit]
  rfl

theorem live_touched (found : s.sessions.lookup id = some sess) (now : ℤ) (el : ℕ) :
    live (touched s id sess now el) = live s := by
  funext client
  exact count_insert_of_alike found rfl

theorem Represents.touched (rep : Represents s) (found : s.sessions.lookup id = some sess) (now : ℤ)
    (el : ℕ) :
    Represents (touched s id sess now el) := by
  have present : id ∈ s.sessions := lookup_isSome.mp (by rw [found]; rfl)
  constructor
  case keys =>
    intro other
    change other ∈ s.sessions.insert _ _ ↔ other ∈ s.lruIndex
    rw [mem_insert, ← rep.keys other, or_iff_right_of_imp]
    rintro rfl
    exact present
  case indexed =>
    intro other handle
    change s.lruIndex.lookup other = some handle ↔ _ ∈ (s.lru.moveToFront el).elements
    rw [Chain.mem_moveToFront]
    exact rep.indexed other handle
  case tallies =>
    rw [live_touched found]
    exact rep.tallies

theorem size_touched (found : s.sessions.lookup id = some sess) (now : ℤ) (el : ℕ) :
    size (touched s id sess now el).sessions = size s.sessions := by
  have isKey := mem_keys_of_lookup found
  have positive := length_pos_of_mem isKey
  change (s.sessions.insert id _).keys.length = s.sessions.keys.length
  rw [keys_insert, length_cons, length_erase_of_mem isKey]
  omega

/-- The store is sound, its list follows the last uses, and a session that has left it is marked. -/
structure Sound (opts : SessionStoreOpts) (used : String → ℕ) (clock : ℕ)
    (s : HubSessionStore) : Prop where
  rep : Represents s
  capped : Capped s
  ranked : s.lru.Ranked used
  past : ∀ e ∈ s.lru.elements, used e.value ≤ clock
  marked : ∀ id, used id ≠ 0 → id ∈ s.sessions ∨ id ∈ s.deleteStarted
  opts : s.opts = (newHubSessionStore opts).opts

section

variable {opts : SessionStoreOpts} {used : String → ℕ} {clock : ℕ} {s : HubSessionStore}

theorem Sound.tick (sound : Sound opts used clock s) : Sound opts used (clock + 1) s :=
  { sound with past := fun e listed => Nat.le_succ_of_le (sound.past e listed) }

variable {id : String} {sess : HubSession} {el : ℕ}

section

variable (sound : Sound opts used clock s)

include sound

theorem Sound.removed
    (found : s.sessions.lookup id = some sess) (inList : ⟨el, id⟩ ∈ s.lru.elements) :
    Sound opts used clock (removed s id sess el) where
  rep := sound.rep.removed found inList
  capped := sound.capped.removed found
  ranked := sound.ranked.remove el
  past := fun e listed => sound.past e (Chain.mem_remove.mp listed).1
  marked := by
    intro other wasUsed
    by_cases same : other = id
    · exact .inr (mem_append.mpr (.inr (mem_singleton.mpr same)))
    · rcases sound.marked other wasUsed with present | left
      · exact .inl (mem_erase.mpr ⟨same, present⟩)
      · exact .inr (mem_append.mpr (.inl left))
  opts := sound.opts

theorem Sound.deleteLocked (id : String) : Sound opts used clock (s.deleteLocked id).2 := by
  rcases deleteLocked_cases sound.rep id with ⟨_, kept⟩ | ⟨sess, el, found, inList, deleted⟩
  · rw [kept]
    exact sound
  · rw [deleted]
    exact sound.removed found inList

theorem Sound.sweepOnce (now : ℤ) (order : List String)
    (load reload : String → ℤ) : Sound opts used clock (s.sweepOnce now order load reload) := by
  unfold HubSessionStore.sweepOnce
  generalize s.sweepCandidates (now - s.opts.idleTimeout) order load = candidates
  induction candidates generalizing s with
  | nil => exact sound
  | cons id rest ih =>
    rw [foldl_cons]
    apply ih
    split_ifs
    · exact sound.deleteLocked id
    · exact sound

theorem Sound.marked_insert (id : String) (sess : HubSession)
    (time : ℕ) (other : String) (wasUsed : Function.update used id time other ≠ 0) :
    other ∈ s.sessions.insert id sess ∨ other ∈ s.deleteStarted := by
  rw [mem_insert]
  by_cases same : other = id
  · exact .inl (.inl same)
  · rw [Function.update_of_ne same] at wasUsed
    rcases sound.marked other wasUsed with present | left
    · exact .inl (.inr present)
    · exact .inr left

theorem Sound.register (absent : s.sessions.lookup sess.clientSessionID = none)
    (room : (live s sess.scopeKey : ℤ) < s.opts.maxPerClient)
    (space : (size s.sessions : ℤ) < s.opts.maxGlobal) :
    Sound opts (Function.update used sess.clientSessionID (clock + 1)) (clock + 1)
      (s.register sess) := by
  have other (e : Element String) (listed : e ∈ s.lru.elements) :
      Function.update used sess.clientSessionID (clock + 1) e.value = used e.value := by
    refine Function.update_of_ne ?_ _ _
    intro same
    obtain ⟨old, found⟩ := sound.rep.session listed
    rw [same, absent] at found
    cases found
  refine ⟨sound.rep.register absent, sound.capped.register absent room space, ?_, ?_, ?_,
    sound.opts⟩
  · refine Chain.Ranked.pushFront (sound.ranked.congr other) ?_
    intro e listed
    have before := sound.past e listed
    rw [other e listed, Function.update_self]
    omega
  · intro e listed
    rcases mem_cons.mp listed with rfl | old
    · rw [Function.update_self]
    · have before := sound.past e old
      rw [other e old]
      omega
  · exact sound.marked_insert _ _ _

theorem Sound.touched
    (found : s.sessions.lookup id = some sess) (inList : ⟨el, id⟩ ∈ s.lru.elements) (now : ℤ) :
    Sound opts (Function.update used id (clock + 1)) (clock + 1) (touched s id sess now el) := by
  have other (e : Element String) (listed : e ∈ s.lru.elements) (differs : e ≠ ⟨el, id⟩) :
      Function.update used id (clock + 1) e.value = used e.value := by
    refine Function.update_of_ne ?_ _ _
    intro same
    exact differs (sound.rep.eq_of_value listed inList same)
  refine ⟨sound.rep.touched found now el, ⟨?_, ?_⟩, ?_, ?_, ?_, sound.opts⟩
  · rw [live_touched found]
    exact sound.capped.perClient
  · rw [size_touched found]
    exact sound.capped.total
  · refine Chain.Ranked.moveToFront sound.ranked inList other ?_
    intro e listed differs
    have before := sound.past e listed
    rw [other e listed differs, Function.update_self]
    omega
  · intro e listed
    have old := Chain.mem_moveToFront.mp listed
    by_cases own : e = ⟨el, id⟩
    · rw [own, Function.update_self]
    · have before := sound.past e old
      rw [other e old own]
      omega
  · exact sound.marked_insert _ _ _

theorem Sound.replace {load : String → ℤ} {victim : String} {new : HubSession}
    (lru : Victim s load victim sess el) (absent : s.sessions.lookup new.clientSessionID = none)
    (room : (live s new.scopeKey : ℤ) < s.opts.maxPerClient) :
    Sound opts (Function.update used new.clientSessionID (clock + 1)) (clock + 1)
      ((StoreInvariant.removed s victim sess el).register new) := by
  have smaller := size_erase_of_present lru.found
  have fewer := live_removed lru.found el new.scopeKey
  have total := sound.capped.total
  refine (sound.removed lru.found lru.inList).register ?_ ?_ ?_
  · change (s.sessions.erase victim).lookup new.clientSessionID = none
    have differs : new.clientSessionID ≠ victim := by
      intro same
      rw [same, lru.found] at absent
      cases absent
    rw [lookup_erase_ne differs]
    exact absent
  · change (live (StoreInvariant.removed s victim sess el) new.scopeKey : ℤ) < s.opts.maxPerClient
    omega
  · change (size (s.sessions.erase victim) : ℤ) < s.opts.maxGlobal
    omega

theorem Sound.recordActivity (found : s.sessions.lookup id = some sess) (now : ℤ) :
    Sound opts (Function.update used id (clock + 1)) (clock + 1)
      (s.recordActivity id sess now).2 := by
  obtain ⟨el, inList, same⟩ := recordActivity_eq sound.rep found now
  rw [same]
  exact sound.touched found inList now

end

end

theorem opened_sound (opened : Opened opts w) : Sound opts w.used w.clock w.store := by
  obtain rfl : w = { store := newHubSessionStore opts } := opened
  constructor
  case rep => exact ⟨fun _ => Iff.rfl, fun _ _ => ⟨nofun, nofun⟩, fun _ => rfl⟩
  case capped =>
    have perClient := positiveOr_pos (by decide : 0 < defaultMaxSessionsPerClient) opts.maxPerClient
    have total := positiveOr_pos (by decide : 0 < defaultMaxSessionsGlobal) opts.maxGlobal
    exact ⟨fun _ => perClient.le, total.le⟩
  case ranked => exact List.Pairwise.nil
  case past => exact nofun
  case marked => exact fun _ wasUsed => absurd rfl wasUsed
  case opts => rfl

theorem step_sound {t : World} {op : Op} (sound : Sound opts w.used w.clock w.store)
    (fresh : FreshID w op) (moved : step w op = some t) :
    Sound opts t.used t.clock t.store := by
  cases op with
  | create client protoVer snap generated now load =>
    have creates := create_creates sound.rep client protoVer snap generated now load
    simp only [step] at moved
    generalize w.store.create client protoVer snap generated now load = outcome at creates moved
    cases creates with
    | clientFull | noID | allBusy =>
      cases moved
      exact sound.tick
    | room gave roomOfClient space =>
      subst gave
      cases moved
      exact sound.register fresh roomOfClient space
    | evicted gave roomOfClient full lru =>
      subst gave
      cases moved
      exact sound.replace lru fresh roomOfClient
  | get id =>
    cases moved
    exact sound.tick
  | getAndTouch id now | touch id now =>
    simp only [step, HubSessionStore.getAndTouch, HubSessionStore.touch] at moved
    cases found : w.store.sessions.lookup id with
    | none =>
      rw [found] at moved
      cases moved
      exact sound.tick
    | some sess =>
      rw [found] at moved
      cases moved
      exact sound.recordActivity found now
  | delete id =>
    cases moved
    exact (sound.deleteLocked id).tick
  | sweepOnce now order load reload =>
    simp only [step] at moved
    split_ifs at moved
    cases moved
    exact (sound.sweepOnce now order load reload).tick

theorem reachable_sound
    (reached : Reachable (Opened opts) step FreshID w) : Sound opts w.used w.clock w.store :=
  reached.invariant (fun _ opened => opened_sound opened)
    (fun _ _ _ sound fresh moved => step_sound sound fresh moved)

/-- In every run the structures of the store agree and the caps hold. At the global cap, `Create`
replaces the idle session that was used least recently, or fails and changes nothing when there is
none; so does any other refusal. -/
theorem store_represents {opts : SessionStoreOpts} {w : World}
    (reached : Reachable (Opened opts) step FreshID w) :
    (∀ id, id ∈ w.store.sessions ↔ id ∈ w.store.lruIndex) ∧
      w.store.lru.values.Perm w.store.sessions.keys ∧ w.store.lru.values.Nodup ∧
      (∀ client, w.store.perClient.lookup client =
        if live w.store client = 0 then none else some (live w.store client : ℤ)) ∧
      w.store.opts = (newHubSessionStore opts).opts ∧
      (∀ client, (live w.store client : ℤ) ≤ w.store.opts.maxPerClient) ∧
      (size w.store.sessions : ℤ) ≤ w.store.opts.maxGlobal ∧
      ∀ client protoVer snap generated now load,
        FreshID w (.create client protoVer snap generated now load) →
        (size w.store.sessions : ℤ) = w.store.opts.maxGlobal →
        match w.store.create client protoVer snap generated now load with
        | (.ok sess, after) =>
          ∃ victim ∈ w.store.sessions, load victim = 0 ∧
            (∀ id ∈ w.store.sessions, load id = 0 → id ≠ victim → w.used victim < w.used id) ∧
            ∀ id, after.sessions.lookup id = if id = sess.clientSessionID then some sess
              else if id = victim then none else w.store.sessions.lookup id
        | (.error err, after) =>
          after = w.store ∧
            (err = .globalCap w.store.opts.maxGlobal → ∀ id ∈ w.store.sessions, load id ≠ 0) ∧
            ((live w.store client : ℤ) < w.store.opts.maxPerClient →
              (∃ id, generated = .ok id) → err = .globalCap w.store.opts.maxGlobal) := by
  have sound := reachable_sound reached
  refine ⟨sound.rep.keys, sound.rep.values_perm, sound.rep.values_nodup, sound.rep.tallies,
    sound.opts, sound.capped.perClient, sound.capped.total, ?_⟩
  intro client protoVer snap generated now load fresh atCap
  have creates := create_creates sound.rep client protoVer snap generated now load
  generalize w.store.create client protoVer snap generated now load = outcome at creates
  cases creates with
  | clientFull full => exact ⟨rfl, nofun, fun room => absurd room (not_lt.mpr full)⟩
  | noID failed =>
    refine ⟨rfl, nofun, ?_⟩
    rintro _ ⟨id, gave⟩
    cases failed.symm.trans gave
  | allBusy full busy => exact ⟨rfl, fun _ => busy, fun _ _ => rfl⟩
  | room gave roomOfClient space => exact absurd atCap (ne_of_lt space)
  | @evicted id victim sess el gave roomOfClient full lru =>
    have present : victim ∈ w.store.sessions := lookup_isSome.mp (by rw [lru.found]; rfl)
    refine ⟨victim, present, lru.idle, lru.lowest w.used sound.ranked, ?_⟩
    intro other
    change ((w.store.sessions.erase victim).insert id _).lookup other = _
    by_cases new : other = id
    · rw [if_pos new, new, lookup_insert]
    · rw [if_neg new, lookup_insert_ne new]
      by_cases old : other = victim
      · rw [if_pos old, old, lookup_erase]
      · rw [if_neg old, lookup_erase_ne old]

instance (w : World) (op : Op) : Decidable (FreshID w op) := by
  unfold FreshID
  split <;> infer_instance

theorem store_represents_evicting :
    ∃ w, Reachable (Opened ⟨2, 2, 0, 0⟩) step FreshID w ∧
      w.store.lru.values.Perm w.store.sessions.keys ∧
      w.store.lru.values = ["first", "second"] ∧
      (w.store.create "cursor" "2025-06-18" none (.ok "third") 4 (fun _ => 0)).2.lru.values =
        ["third", "first"] := by
  refine (exists_reachable_under step { store := newHubSessionStore ⟨2, 2, 0, 0⟩ }
    [.create "claude" "2025-06-18" none (.ok "first") 1 (fun _ => 0),
      .create "cursor" "2025-06-18" none (.ok "second") 2 (fun _ => 0), .touch "first" 3] (by rfl) ?_).imp
    (fun w found => ⟨found.1, (store_represents found.1).2.1, found.2⟩)
  decide +kernel

end McpLocalHub.Hub.StoreInvariant
