/- Module: Hub/TokenFreshness
   source: internal/api/hub_mcp_tokens.go, internal/api/hub_mcp_groups.go,
   internal/api/hub_mcp_resolver.go
   digest: Which token a group is served with after it was deleted and added again. -/

import McpLocalHub.Hub.GroupTokens

set_option autoImplicit false

namespace McpLocalHub.Hub.GroupTokens

open Foundation.Maps Foundation.Runs List

def RowLocal (needs : TokenTable → String → Bool) : Prop :=
  ∀ (table : TokenTable) (key token other : String), other ≠ key →
    needs (table.insert key token) other = needs table other

theorem reintroduced_local (active : List String) : RowLocal (reintroduced active) := by
  intro table key token other differs
  simp only [reintroduced, AList.lookup_insert_ne differs]

theorem unminted_local : RowLocal unminted := by
  intro table key token other differs
  simp only [unminted, AList.lookup_insert_ne differs]

section Minting

variable {needs : TokenTable → String → Bool}

theorem mintRows_cons (head : String) (keys : List String) (table : TokenTable) (changed : Bool)
    (supply : List String) :
    mintRows needs (head :: keys) table changed supply = if needs table head then
        match supply with
        | [] => none
        | token :: rest => mintRows needs keys (table.insert head token) true rest
      else mintRows needs keys table changed supply := by
  cases supply <;> rfl

variable {keys supply rest : List String} {table minted : TokenTable} {changed changed' : Bool}

theorem mintRows_unchanged
    (done : mintRows needs keys table changed supply = some (minted, false, rest)) :
    minted = table ∧ changed = false := by
  induction keys generalizing table changed supply with
  | nil =>
    obtain ⟨rfl, rfl, rfl⟩ := done
    exact ⟨rfl, rfl⟩
  | cons head keys ih =>
    rw [mintRows_cons] at done
    split_ifs at done
    · cases supply with
      | nil => cases done
      | cons token more => cases (ih done).2
    · exact ih done

/-- What becomes of the rows: one that needs no token is kept, and a listed one that needs a token
gets it from the supply. -/
structure Mints (needs : TokenTable → String → Bool) (keys supply rest : List String)
    (table minted : TokenTable) : Prop where
  rows : ∀ key, minted.lookup key = table.lookup key ∨
    ∃ token ∈ supply, minted.lookup key = some token
  left : ∀ token ∈ rest, token ∈ supply
  kept : ∀ key, needs table key = false → minted.lookup key = table.lookup key
  renewed : ∀ key ∈ keys, needs table key = true → ∃ token ∈ supply, minted.lookup key = some token

theorem mintRows_mints (isLocal : RowLocal needs)
    (done : mintRows needs keys table changed supply = some (minted, changed', rest)) :
    Mints needs keys supply rest table minted := by
  induction keys generalizing table changed supply with
  | nil =>
    obtain ⟨rfl, _, rfl⟩ := done
    exact ⟨fun _ => .inl rfl, fun _ listed => listed, fun _ _ => rfl, nofun⟩
  | cons head keys ih =>
    rw [mintRows_cons] at done
    split_ifs at done with needed
    · cases supply with
      | nil => cases done
      | cons token more =>
        have later := ih done
        have first : ∃ given ∈ token :: more, minted.lookup head = some given := by
          rcases later.rows head with same | ⟨given, listed, found⟩
          · exact ⟨token, .head _, same.trans (AList.lookup_insert _)⟩
          · exact ⟨given, .tail _ listed, found⟩
        have others {key : String} (differs : key ≠ head) :
            needs (table.insert head token) key = needs table key ∧
              (table.insert head token).lookup key = table.lookup key :=
          ⟨isLocal table head token key differs, AList.lookup_insert_ne differs⟩
        refine ⟨fun key => ?_, fun other listed => .tail _ (later.left other listed),
          fun key fine => ?_, fun key listed needy => ?_⟩
        · by_cases own : key = head
          · exact .inr (own ▸ first)
          · rcases later.rows key with same | ⟨given, listed, found⟩
            · exact .inl (same.trans (others own).2)
            · exact .inr ⟨given, .tail _ listed, found⟩
        · have differs : key ≠ head := by
            rintro rfl
            rw [fine] at needed
            cases needed
          exact (later.kept key ((others differs).1.trans fine)).trans (others differs).2
        · by_cases own : key = head
          · exact own ▸ first
          · obtain ⟨given, among, found⟩ := later.renewed key (mem_of_ne_of_mem own listed)
              ((others own).1.trans needy)
            exact ⟨given, .tail _ among, found⟩
    · have later := ih done
      refine ⟨later.rows, later.left, later.kept, fun key listed needy => ?_⟩
      have own : key ≠ head := fun same => needed (same ▸ needy)
      exact later.renewed key (mem_of_ne_of_mem own listed) needy

end Minting

variable {s t u : State} {readable : Bool} {table : TokenTable} {supply : List String}
  {input : PublishInput} {error : Option PublishError} {action : Action} {name token : String}

theorem load_ok
    (loaded : loadHubTokensLocked s readable = .ok table) : s.tokenFile = some table := by
  unfold loadHubTokensLocked at loaded
  split_ifs at loaded
  split at loaded
  · cases loaded
  · split_ifs at loaded
    cases loaded
    assumption

theorem load_missing
    (loaded : loadHubTokensLocked s readable = .error .missing) : s.tokenFile = none := by
  unfold loadHubTokensLocked at loaded
  split at loaded
  · cases loaded
  · split at loaded
    · assumption
    · split at loaded <;> cases loaded

theorem fileRow_of_file (file : s.tokenFile = some table)
    (key : String) : s.fileRow key = table.lookup key := by
  simp [State.fileRow, file]

/-- Only the token file and the live table changed: a row is as before or new, and the table as
before or that of the file. -/
structure Minted (supply : List String) (s t : State) : Prop where
  groups : t.groups = s.groups
  snapshot : t.snapshot = s.snapshot
  rows : ∀ key, t.fileRow key = s.fileRow key ∨ ∃ token ∈ supply, t.fileRow key = some token
  live : t.tokenFile = s.tokenFile ∧ t.liveTokens = s.liveTokens ∨
    ∀ key, t.liveRow key = t.fileRow key

theorem Minted.refl (supply : List String) (s : State) : Minted supply s s :=
  ⟨rfl, rfl, fun _ => .inl rfl, .inl ⟨rfl, rfl⟩⟩

variable {rest keys : List String} {allow : State → Action → Prop}

theorem Minted.trans (first : Minted supply s t)
    (second : Minted rest t u) (left : ∀ token ∈ rest, token ∈ supply) : Minted supply s u where
  groups := second.groups.trans first.groups
  snapshot := second.snapshot.trans first.snapshot
  rows key := by
    rcases second.rows key with same | ⟨token, listed, found⟩
    · rw [same]
      exact first.rows key
    · exact .inr ⟨token, left token listed, found⟩
  live := by
    rcases second.live with ⟨file, table⟩ | equal
    · rcases first.live with ⟨file', table'⟩ | equal
      · exact .inl ⟨file.trans file', table.trans table'⟩
      · refine .inr (fun key => ?_)
        have same := equal key
        unfold State.liveRow State.fileRow at same ⊢
        rw [file, table]
        exact same
    · exact .inr equal

theorem storeTokens_minted
    (rows : ∀ key, table.lookup key = s.fileRow key ∨
      ∃ token ∈ supply, table.lookup key = some token) : Minted supply s (storeTokens s table) :=
  ⟨rfl, rfl, rows, .inr (fun _ => rfl)⟩

/-- Rows of active groups are as they were, and no declared group that was not active keeps one,
unless this is the first publish. -/
structure Rotated (s t : State) (declared active : List String) (knownGood cold : Bool)
    (supply rest : List String) : Prop where
  minted : Minted supply s t
  left : ∀ token ∈ rest, token ∈ supply
  kept : ∀ key, (knownGood = true → key ∈ active) → t.fileRow key = s.fileRow key
  renewed : cold = false → ∀ key ∈ declared, key ∉ active → s.fileRow key ≠ none →
    ∃ token ∈ supply, t.fileRow key = some token

theorem rotate_rotated {declared active : List String} {knownGood cold : Bool}
    (done : rotateReusedGroupTokensLocked s declared active knownGood cold input = .ok (t, rest)) :
    Rotated s t declared active knownGood cold input.supply rest := by
  unfold rotateReusedGroupTokensLocked at done
  split at done
  · rename_i trivially
    obtain ⟨rfl, rfl⟩ := Except.ok.inj done
    refine ⟨.refl _ s, fun _ listed => listed, fun _ _ => rfl, fun warm key listed => ?_⟩
    rcases trivially with none | isCold
    · rw [none] at listed
      cases listed
    · rw [warm] at isCold
      cases isCold
  split at done
  · rename_i missing
    obtain ⟨rfl, rfl⟩ := Except.ok.inj done
    refine ⟨.refl _ s, fun _ listed => listed, fun _ _ => rfl, fun _ key _ _ present => ?_⟩
    exact absurd (by simp [State.fileRow, load_missing missing]) present
  · cases done
  rename_i table loaded
  have file := fileRow_of_file (load_ok loaded)
  split at done
  · split at done
    · cases done
    · rename_i doubt absent
      obtain ⟨rfl, rfl⟩ := Except.ok.inj done
      refine ⟨.refl _ s, fun _ listed => listed, fun _ _ => rfl, fun _ key listed _ present => ?_⟩
      have found : (table.lookup key).isSome = true := by
        rw [← file]
        exact Option.isSome_iff_ne_none.mpr present
      exact absurd (any_eq_true.mpr ⟨key, listed, found⟩) absent
  rename_i certain
  have isKnownGood : knownGood = true := by simpa using certain
  have needed {key : String} (inactive : key ∉ active) (present : s.fileRow key ≠ none) :
      reintroduced active table key = true := by
    rw [file] at present
    simp [reintroduced, inactive, Option.isSome_iff_ne_none, present]
  split at done
  · cases done
  · rename_i same unchanged minting
    obtain ⟨rfl, rfl⟩ := Except.ok.inj done
    have mints := mintRows_mints (reintroduced_local active) minting
    obtain ⟨isSame, _⟩ := mintRows_unchanged minting
    refine ⟨.refl _ s, mints.left, fun _ _ => rfl, ?_⟩
    intro _ key listed inactive present
    obtain ⟨token, among, found⟩ := mints.renewed key listed (needed inactive present)
    rw [isSame] at found
    exact ⟨token, among, (file key).trans found⟩
  · rename_i rotated more minting
    split at done
    · obtain ⟨rfl, rfl⟩ := Except.ok.inj done
      have mints := mintRows_mints (reintroduced_local active) minting
      refine ⟨storeTokens_minted (fun key => by rw [file]; exact mints.rows key), mints.left,
        fun key isActive => ?_, fun _ key listed inactive present => ?_⟩
      · have fine : reintroduced active table key = false := by
          simp [reintroduced, isActive isKnownGood]
        exact (mints.kept key fine).trans (file key).symm
      · exact mints.renewed key listed (needed inactive present)
    · cases done

theorem ensure_loaded (done : ensureHubTokensLocked s keys supply input = .ok t) :
    ∃ table, (∀ key, s.fileRow key = table.lookup key) ∧
      ensureTable s keys supply input table = .ok t := by
  unfold ensureHubTokensLocked at done
  cases loaded : loadHubTokensLocked s input.ensureLoad with
  | ok table =>
    rw [loaded] at done
    exact ⟨table, fileRow_of_file (load_ok loaded), done⟩
  | error error =>
    rw [loaded] at done
    cases error with
    | failed => cases done
    | missing => exact ⟨∅, fun key => by simp [State.fileRow, load_missing loaded], done⟩

theorem ensure_ensured (done : ensureHubTokensLocked s keys supply input = .ok t) :
    Minted supply s t ∧ ∀ key, s.fileRow key ≠ none → t.fileRow key = s.fileRow key := by
  obtain ⟨table, file, stored⟩ := ensure_loaded done
  unfold ensureTable at stored
  split at stored
  · cases stored
  · rename_i ensured rest minting
    cases stored
    obtain ⟨rfl, _⟩ := mintRows_unchanged minting
    exact ⟨⟨rfl, rfl, fun _ => .inl rfl, .inr (fun key => (file key).symm)⟩, fun _ _ => rfl⟩
  · rename_i ensured rest minting
    split at stored
    · cases stored
      have mints := mintRows_mints unminted_local minting
      refine ⟨storeTokens_minted (fun key => by rw [file]; exact mints.rows key), ?_⟩
      intro key present
      have fine : unminted table key = false := by
        rw [file] at present
        have some : (table.lookup key).isNone = false :=
          Option.isNone_eq_false_iff.mpr (Option.isSome_iff_ne_none.mpr present)
        rw [unminted, some, Bool.and_false]
      exact (mints.kept key fine).trans (file key).symm
    · cases stored

inductive Published (s : State) (supply : List String) : State → Option PublishError → Prop
  | withheld {t : State} (error : PublishError) (groups : t.groups = s.groups) (snapshot : t.snapshot = s.snapshot)
      (file : t.tokenFile = s.tokenFile) (live : t.liveTokens = s.liveTokens) :
      Published s supply t (some error)
  /-- The groups go live. Rows of live groups are kept, and where something was live before, the
  others are new. -/
  | released {m : State} {error : Option PublishError} (valid : ∀ name ∈ s.groups, validGroupName name = true)
      (minted : Minted supply s m)
      (kept : ∀ key ∈ s.snapshot.getD [], s.fileRow key ≠ none → m.fileRow key = s.fileRow key)
      (renewed : s.snapshot.isSome = true → ∀ key ∈ groupScopeKeys s.groups,
        key ∉ s.snapshot.getD [] → s.fileRow key ≠ none →
          ∃ token ∈ supply, m.fileRow key = some token) :
      Published s supply (publishSnapshot m s.groups) error

theorem loadGroups_some {names : List String} (loaded : loadGroupsLocked s readable = some names) :
    names = s.groups ∧ ∀ name ∈ s.groups, validGroupName name = true := by
  unfold loadGroupsLocked at loaded
  split_ifs at loaded with checked
  have valid : s.groups.all validGroupName = true := by
    simp only [Bool.and_eq_true] at checked
    exact checked.1.2
  exact ⟨(Option.some.inj loaded).symm, all_eq_true.mp valid⟩

theorem publish_published (s : State) (input : PublishInput) :
    Published s input.supply (publishGroupsSnapshotLocked s input).1
      (publishGroupsSnapshotLocked s input).2 := by
  unfold publishGroupsSnapshotLocked
  split
  · exact .withheld _ rfl rfl rfl rfl
  split
  · exact .withheld _ rfl rfl rfl rfl
  rename_i names loaded
  obtain ⟨rfl, valid⟩ := loadGroups_some loaded
  dsimp only
  generalize isKnownGood : (s.snapshot.isSome && decide (s.status = .knownGood)) = knownGood
  generalize isActive : (if knownGood = true then s.snapshot.getD [] else []) = active
  have activeOf : knownGood = true → active = s.snapshot.getD [] := fun good => by
    rw [← isActive, if_pos good]
  have inactive {key : String} (gone : key ∉ s.snapshot.getD []) : key ∉ active := by
    rw [← isActive]
    split_ifs
    · exact gone
    · exact not_mem_nil
  split
  · rename_i settled
    refine .released valid (.refl _ s) (fun _ _ _ => rfl) ?_
    intro _ key listed gone
    rcases settled with none | already
    · rw [none] at listed
      cases listed
    · simp only [groupTokensAlreadyPublished, Bool.and_eq_true] at already
      have held := all_eq_true.mp already.2 key listed
      simp only [Bool.and_eq_true, decide_eq_true_eq] at held
      exact absurd held.1 (inactive gone)
  split
  · exact .withheld _ rfl rfl rfl rfl
  rename_i rotated rest rotation
  have spec := rotate_rotated rotation
  have cold : s.snapshot.isSome = true →
      (s.snapshot.isNone && decide (s.status = .cold)) = false := fun warm => by
    rw [Option.isNone_eq_false_iff.mpr warm, Bool.false_and]
  have kept : ∀ key ∈ s.snapshot.getD [], rotated.fileRow key = s.fileRow key :=
    fun key listed => spec.kept key (fun good => activeOf good ▸ listed)
  split
  · refine .released valid spec.minted (fun key listed _ => kept key listed) ?_
    intro warm key listed gone present
    exact spec.renewed (cold warm) key listed (inactive gone) present
  · rename_i ensured ensuring
    obtain ⟨minted, still⟩ := ensure_ensured ensuring
    refine .released valid (spec.minted.trans minted spec.left) ?_ ?_
    · intro key listed present
      have same := kept key listed
      rw [still key (same ▸ present), same]
    · intro warm key listed gone present
      obtain ⟨token, among, found⟩ :=
        spec.renewed (cold warm) key listed (inactive gone) present
      refine ⟨token, among, ?_⟩
      rw [still key (by rw [found]; simp), found]

theorem groupScopeKey_injective {a b : String}
    (same : groupScopeKey a = groupScopeKey b) : a = b := by
  unfold groupScopeKey at same
  have chars := congrArg String.toList same
  rw [String.toList_append, String.toList_append] at chars
  exact String.toList_inj.mp (append_cancel_left chars)

/-- Rows of groups that are deleted may go, every other row stays, and the live table is as before
or that of the file. -/
structure Modified (s : State) (input : ModifyInput) (t : State) : Prop where
  snapshot : t.snapshot = s.snapshot
  seen : t.seen = s.seen
  rows : ∀ key, t.fileRow key = s.fileRow key ∨ t.fileRow key = none
  kept : ∀ name ∉ input.deleted, t.fileRow (groupScopeKey name) = s.fileRow (groupScopeKey name)
  live : t.tokenFile = s.tokenFile ∧ t.liveTokens = s.liveTokens ∨
    ∀ key, t.liveRow key = t.fileRow key
  groups : ∀ name ∈ s.groups, name ∉ input.deleted → name ∈ t.groups
  origin : ∀ name ∈ t.groups, name ∈ s.groups ∨ name ∈ input.added

theorem prune_rows {input : ModifyInput} (pruned : pruneHubTokensLocked s keys input = some t) :
    t = s ∨ ∃ table, t = storeTokens s table ∧
      ∀ key, table.lookup key = if key ∈ keys then none else s.fileRow key := by
  unfold pruneHubTokensLocked at pruned
  split at pruned
  · exact .inl (Option.some.inj pruned).symm
  · cases pruned
  · rename_i table loaded
    have file := fileRow_of_file (load_ok loaded)
    split at pruned
    · split at pruned
      · refine .inr ⟨_, (Option.some.inj pruned).symm, fun key => ?_⟩
        rw [file]
        exact lookup_foldl_erase keys table key
      · cases pruned
    · exact .inl (Option.some.inj pruned).symm

theorem modify_modified (s : State) (input : ModifyInput) :
    Modified s input (readModifyWriteGroups s input).1 := by
  have refused : Modified s input s :=
    ⟨rfl, rfl, fun _ => .inl rfl, fun _ _ => rfl, .inl ⟨rfl, rfl⟩, fun _ listed _ => listed,
      fun _ listed => .inl listed⟩
  unfold readModifyWriteGroups
  split
  · exact refused
  rename_i names loaded
  obtain ⟨rfl, _⟩ := loadGroups_some loaded
  dsimp only
  split
  case isFalse => exact refused
  generalize changes : s.groups.filter (fun name => decide (name ∉ input.deleted)) ++
    input.added = changed
  have survives : ∀ name ∈ s.groups, name ∉ input.deleted → name ∈ changed := by
    intro name listed stays
    rw [← changes]
    exact mem_append_left _ (mem_filter.mpr ⟨listed, decide_eq_true stays⟩)
  have origin : ∀ name ∈ changed, name ∈ s.groups ∨ name ∈ input.added := by
    intro name listed
    rw [← changes] at listed
    exact (mem_append.mp listed).imp_left (fun before => (mem_filter.mp before).1)
  have committed : Modified s input { s with groups := changed } :=
    ⟨rfl, rfl, fun _ => .inl rfl, fun _ _ => rfl, .inl ⟨rfl, rfl⟩, survives, origin⟩
  split
  · exact committed
  split
  case h_2 => exact committed
  rename_i pruned pruning
  rcases prune_rows pruning with rfl | ⟨table, rfl, rows⟩
  · exact committed
  have row (key : String) :
      (storeTokens { s with groups := changed } table).fileRow key = table.lookup key := rfl
  refine ⟨rfl, rfl, fun key => ?_, fun name stays => ?_, .inr (fun _ => rfl), survives, origin⟩
  · rw [row, rows]
    split_ifs
    · exact .inr rfl
    · exact .inl rfl
  · have unlisted : groupScopeKey name ∉
        (input.deleted.filter validGroupName).map groupScopeKey := by
      intro listed
      obtain ⟨other, among, same⟩ := mem_map.mp listed
      obtain rfl := groupScopeKey_injective same
      exact stays (mem_filter.mp among).1
    rw [row, rows, if_neg unlisted]
    rfl

structure Sound (s : State) : Prop where
  published : s.snapshot.isSome = true
  live : ∀ key token, s.liveRow key = some token → s.fileRow key = some token
  seen : ∀ key token, s.fileRow key = some token → token ∈ s.seen

theorem live_of_tokens
    (before : ∀ key token, s.liveRow key = some token → s.fileRow key = some token)
    (tokens : t.tokenFile = s.tokenFile ∧ t.liveTokens = s.liveTokens ∨
      ∀ key, t.liveRow key = t.fileRow key) (key token : String)
    (found : t.liveRow key = some token) : t.fileRow key = some token := by
  rcases tokens with ⟨file, live⟩ | same
  · unfold State.liveRow State.fileRow at *
    rw [live] at found
    rw [file]
    exact before key token found
  · rw [← same]
    exact found

theorem publish_step (moved : publish s input = some (t, error)) :
    (∀ token ∈ input.supply, token ∉ s.seen) ∧
      ∃ u, Published s input.supply u error ∧ t = { u with seen := input.supply ++ s.seen } := by
  unfold publish at moved
  split_ifs at moved with fresh
  obtain ⟨rfl, rfl⟩ := Prod.mk.inj (Option.some.inj moved)
  refine ⟨fun token listed => ?_, _, publish_published s input, rfl⟩
  simp only [freshSupply, Bool.and_eq_true, all_eq_true, decide_eq_true_eq] at fresh
  exact (fresh.1 token listed).2

theorem published_rows (published : Published s supply u error) :
    (∀ key, u.fileRow key = s.fileRow key ∨ ∃ token ∈ supply, u.fileRow key = some token) ∧
      (u.tokenFile = s.tokenFile ∧ u.liveTokens = s.liveTokens ∨
        ∀ key, u.liveRow key = u.fileRow key) := by
  cases published with
  | withheld error groups snapshot file live =>
    refine ⟨fun key => .inl ?_, .inl ⟨file, live⟩⟩
    unfold State.fileRow
    rw [file]
  | released valid minted kept renewed => exact ⟨minted.rows, minted.live⟩

theorem published_seen (published : Published s supply u error)
    (seen : ∀ key token, s.fileRow key = some token → token ∈ s.seen) (key token : String)
    (found : u.fileRow key = some token) : token ∈ supply ++ s.seen := by
  rcases (published_rows published).1 key with same | ⟨given, listed, isGiven⟩
  · exact mem_append_right _ (seen key token (same ▸ found))
  · obtain rfl := Option.some.inj (isGiven.symm.trans found)
    exact mem_append_left _ listed

theorem Started.sound (started : Started s) : Sound s := by
  obtain ⟨boot, input, booted, moved⟩ := started
  obtain ⟨_, u, published, rfl⟩ := publish_step moved
  refine ⟨?_, ?_, fun key token found => published_seen published booted.seen key token found⟩
  · cases published
    rfl
  · exact fun key token found =>
      live_of_tokens (t := u) booted.live (published_rows published).2 key token found

theorem step_sound (sound : Sound s) (moved : step s action = some t) : Sound t := by
  cases action with
  | publish input =>
    obtain ⟨⟨u, error⟩, published, rfl⟩ := Option.map_eq_some_iff.mp moved
    obtain ⟨_, v, effect, rfl⟩ := publish_step published
    refine ⟨?_, fun key token found => live_of_tokens (t := v) sound.live
      (published_rows effect).2 key token found,
      fun key token found => published_seen effect sound.seen key token found⟩
    cases effect with
    | withheld error groups snapshot file live =>
      rw [snapshot]
      exact sound.published
    | released => rfl
  | modify input =>
    cases moved
    have effect := modify_modified s input
    refine ⟨?_, live_of_tokens sound.live effect.live, ?_⟩
    · rw [effect.snapshot]
      exact sound.published
    · intro key token found
      rw [effect.seen]
      rcases effect.rows key with same | none
      · exact sound.seen key token (same ▸ found)
      · rw [none] at found
        cases found

theorem reachable_sound (reached : Reachable Started step allow s) : Sound s :=
  reached.invariant (fun _ started => started.sound) (fun _ _ _ sound _ moved => step_sound sound moved)

theorem run_keeps {labels : List Action} {inv : State → Prop}
    (run : Run step allow s labels t) (sound : Sound s) (holds : inv s)
    (keeps : ∀ {a b action}, Sound a → inv a → allow a action → step a action = some b → inv b) :
    Sound t ∧ inv t :=
  @Run.invariant _ _ step allow (fun a => Sound a ∧ inv a) (fun _ _ _ both allowed moved =>
    ⟨step_sound both.1 moved, keeps both.1 both.2 allowed moved⟩) s t labels run ⟨sound, holds⟩

structure Retired (name token : String) (s : State) : Prop where
  used : token ∈ s.seen
  unserved : s.fileRow (groupScopeKey name) = some token → groupScopeKey name ∉ s.snapshot.getD []

theorem step_retired (sound : Sound s)
    (retired : Retired name token s) (moved : step s action = some t) : Retired name token t := by
  cases action with
  | publish input =>
    obtain ⟨⟨u, error⟩, published, rfl⟩ := Option.map_eq_some_iff.mp moved
    obtain ⟨fresh, v, effect, rfl⟩ := publish_step published
    refine ⟨mem_append_right _ retired.used, fun holds => ?_⟩
    have old : s.fileRow (groupScopeKey name) = some token := by
      rcases (published_rows effect).1 (groupScopeKey name) with same | ⟨given, listed, found⟩
      · exact same ▸ holds
      · obtain rfl := Option.some.inj (found.symm.trans holds)
        exact absurd retired.used (fresh given listed)
    have gone := retired.unserved old
    cases effect with
    | withheld error groups snapshot file live =>
      rw [snapshot]
      exact gone
    | @released m _ valid minted kept renewed =>
      intro served
      have declared : groupScopeKey name ∈ groupScopeKeys s.groups :=
        (perm_insertionSort _ _).mem_iff.mpr served
      obtain ⟨given, listed, found⟩ := renewed sound.published _ declared gone (by rw [old]; simp)
      have isToken : m.fileRow (groupScopeKey name) = some token := holds
      obtain rfl := Option.some.inj (found.symm.trans isToken)
      exact absurd retired.used (fresh given listed)
  | modify input =>
    cases moved
    have effect := modify_modified s input
    refine ⟨effect.seen ▸ retired.used, fun holds => ?_⟩
    rw [effect.snapshot]
    apply retired.unserved
    rcases effect.rows (groupScopeKey name) with same | none
    · exact same ▸ holds
    · rw [none] at holds
      cases holds

/-- A group is added only once the published snapshot is without it or its token row is gone. -/
def AddedWhenGone (s : State) : Action → Prop
  | .modify input => ∀ name ∈ input.added,
      groupScopeKey name ∉ s.snapshot.getD [] ∨ s.fileRow (groupScopeKey name) = none
  | .publish _ => True

instance (s : State) (action : Action) : Decidable (AddedWhenGone s action) := by
  unfold AddedWhenGone
  split <;> infer_instance

theorem compare_row {key : String}
    (accepted : constantTimeCompareToken s key token = true) : s.liveRow key = some token := by
  unfold constantTimeCompareToken at accepted
  split at accepted
  · simp at accepted
  · rename_i stored found
    simp only [Bool.and_eq_true, decide_eq_true_eq] at accepted
    rw [found, accepted.2.2]

theorem retired_of_added {input : ModifyInput} (addedWhenGone : AddedWhenGone s (.modify input))
    (used : token ∈ s.seen) (absent : name ∉ s.groups) (moved : step s (.modify input) = some t)
    (present : name ∈ t.groups) : Retired name token t := by
  cases moved
  have effect := modify_modified s input
  have added : name ∈ input.added := (effect.origin name present).resolve_left absent
  refine ⟨effect.seen ▸ used, fun holds => ?_⟩
  rw [effect.snapshot]
  rcases addedWhenGone name added with gone | none
  · exact gone
  · rcases effect.rows (groupScopeKey name) with same | cleared
    · rw [same, none] at holds
      cases holds
    · rw [cleared] at holds
      cases holds

theorem Retired.rejected (retired : Retired name token s)
    (sound : Sound s) (routable : s.routable name = true) :
    constantTimeCompareToken s (groupScopeKey name) token = false := by
  rw [← Bool.not_eq_true]
  intro accepted
  have row := sound.live _ _ (compare_row accepted)
  simp only [State.routable, Bool.and_eq_true, decide_eq_true_eq] at routable
  exact retired.unserved row routable.2

theorem step_seen (used : token ∈ s.seen) (moved : step s action = some t) : token ∈ t.seen := by
  cases action with
  | publish input =>
    obtain ⟨⟨u, error⟩, published, rfl⟩ := Option.map_eq_some_iff.mp moved
    obtain ⟨_, v, _, rfl⟩ := publish_step published
    exact mem_append_right _ used
  | modify input =>
    cases moved
    rw [(modify_modified s input).seen]
    exact used

/-- A run that deletes the group and later adds it again; it ends with the adding. -/
def Recreated (allow : State → Action → Prop) (name : String) (s u : State) : Prop :=
  ∃ before between first deleted second deletion addition,
    Run step allow s before first ∧ name ∈ first.groups ∧ allow first (.modify deletion) ∧
    step first (.modify deletion) = some deleted ∧ name ∉ deleted.groups ∧
    Run step allow deleted between second ∧ name ∉ second.groups ∧
    allow second (.modify addition) ∧ step second (.modify addition) = some u ∧ name ∈ u.groups

theorem Recreated.retired
    (recreated : Recreated AddedWhenGone name s u) (sound : Sound s) (used : token ∈ s.seen) :
    Sound u ∧ Retired name token u := by
  obtain ⟨before, between, first, deleted, second, deletion, addition, run, _, _, removed, _, later,
    absent, gone, added, present⟩ := recreated
  have atFirst := run_keeps run sound used (fun _ holds _ moved => step_seen holds moved)
  have atSecond := run_keeps later (step_sound atFirst.1 removed) (step_seen atFirst.2 removed)
    (fun _ holds _ moved => step_seen holds moved)
  exact ⟨step_sound atSecond.1 added, retired_of_added gone atSecond.2 absent added present⟩

def Keeps (name : String) (_ : State) : Action → Prop
  | .modify input => name ∉ input.deleted
  | .publish _ => True

instance (name : String) (s : State) (action : Action) : Decidable (Keeps name s action) := by
  unfold Keeps
  split <;> infer_instance

structure Held (name token : String) (s : State) : Prop where
  declared : name ∈ s.groups
  served : groupScopeKey name ∈ s.snapshot.getD []
  live : s.liveRow (groupScopeKey name) = some token

theorem step_held (sound : Sound s)
    (held : Held name token s) (keeps : Keeps name s action) (moved : step s action = some t) :
    Held name token t := by
  have row : s.fileRow (groupScopeKey name) = some token := sound.live _ _ held.live
  have liveOf {u : State} (kept : u.fileRow (groupScopeKey name) = s.fileRow (groupScopeKey name))
      (tokens : u.tokenFile = s.tokenFile ∧ u.liveTokens = s.liveTokens ∨
        ∀ key, u.liveRow key = u.fileRow key) : u.liveRow (groupScopeKey name) = some token := by
    rcases tokens with ⟨_, live⟩ | same
    · unfold State.liveRow
      rw [live]
      exact held.live
    · rw [same, kept, row]
  cases action with
  | publish input =>
    obtain ⟨⟨u, error⟩, published, rfl⟩ := Option.map_eq_some_iff.mp moved
    obtain ⟨_, v, effect, rfl⟩ := publish_step published
    have tokens := (published_rows effect).2
    cases effect with
    | withheld error groups snapshot file live =>
      have kept : v.fileRow (groupScopeKey name) = s.fileRow (groupScopeKey name) := by
        unfold State.fileRow
        rw [file]
      refine ⟨?_, ?_, liveOf kept tokens⟩
      · exact groups ▸ held.declared
      · exact snapshot ▸ held.served
    | @released m _ valid minted kept renewed =>
      have keptRow := kept _ held.served (by rw [row]; simp)
      refine ⟨?_, ?_, liveOf (u := publishSnapshot m s.groups) keptRow tokens⟩
      · exact minted.groups ▸ held.declared
      · exact mem_map_of_mem
          (mem_filter.mpr ⟨held.declared, valid name held.declared⟩)
  | modify input =>
    cases moved
    have effect := modify_modified s input
    exact ⟨effect.groups name held.declared keeps, effect.snapshot ▸ held.served,
      liveOf (effect.kept name keeps) effect.live⟩

/-- A group that is added again only after it has left the snapshot, or its row the file, is served
with none of its old tokens; and a group that is not deleted keeps its token. -/
theorem recreated_group_gets_new_token (name token : String) (s t : State) (labels : List Action)
    (accepted : constantTimeCompareToken s (groupScopeKey name) token = true) :
    (∀ u, Reachable Started step AddedWhenGone s → Recreated AddedWhenGone name s u →
      Run step AddedWhenGone u labels t → t.routable name = true →
      constantTimeCompareToken t (groupScopeKey name) token = false) ∧
    (Reachable Started step always s → name ∈ s.groups → s.routable name = true →
      Run step (Keeps name) s labels t →
      constantTimeCompareToken t (groupScopeKey name) token = true) := by
  constructor
  · intro u reached recreated run routable
    have sound := reachable_sound reached
    have used : token ∈ s.seen := sound.seen _ _ (sound.live _ _ (compare_row accepted))
    obtain ⟨soundThen, retired⟩ := recreated.retired sound used
    have atEnd := run_keeps run soundThen retired
      (fun sound holds _ moved => step_retired sound holds moved)
    exact atEnd.2.rejected atEnd.1 routable
  · intro reached declared routable run
    have sound := reachable_sound reached
    have served : groupScopeKey name ∈ s.snapshot.getD [] := by
      simp only [State.routable, Bool.and_eq_true, decide_eq_true_eq] at routable
      exact routable.2
    have atEnd := run_keeps run sound ⟨declared, served, compare_row accepted⟩ step_held
    unfold constantTimeCompareToken at accepted ⊢
    rw [atEnd.2.live]
    rw [compare_row (by unfold constantTimeCompareToken; exact accepted)] at accepted
    exact accepted

def oldToken : String := "00000000000000000000000000000000000000000000000000000000000000a0"
def newToken : String := "00000000000000000000000000000000000000000000000000000000000000b1"

def firstPublish : State :=
  { groups := ["frontend"]
    tokenFile := some (AList.insert "g:frontend" oldToken ∅)
    liveTokens := some (AList.insert "g:frontend" oldToken ∅)
    snapshot := some ["g:frontend"]
    status := .knownGood
    seen := [oldToken] }

theorem firstPublish_started : Started firstPublish := by
  refine ⟨{ groups := ["frontend"] }, { supply := [oldToken] }, ⟨⟨rfl, rfl⟩, ?_, ?_⟩, ?_⟩
  · exact nofun
  · exact nofun
  · rfl

def deletion : ModifyInput := { deleted := ["frontend"], pruneWrite := false }
def addition : ModifyInput := { added := ["frontend"] }

/-- The publish between the deletion and the adding takes the group out of the snapshot, and the
next one gives it a new token. -/
theorem recreated_frontend_rejects_old_token :
    ∃ u t, Recreated AddedWhenGone "frontend" firstPublish u ∧ t.routable "frontend" = true ∧
      constantTimeCompareToken t "g:frontend" newToken = true ∧
      constantTimeCompareToken t "g:frontend" oldToken = false ∧
      ∃ again, step firstPublish (.publish {}) = some again ∧
        constantTimeCompareToken again "g:frontend" oldToken = true := by
  have recreated : Recreated AddedWhenGone "frontend" firstPublish
      { firstPublish with snapshot := some [] } :=
    ⟨[], [.publish {}], firstPublish, { firstPublish with groups := [] },
      { firstPublish with groups := [], snapshot := some [] }, deletion, addition, .nil,
      by decide, by decide, rfl, by decide, .snoc .nil trivial rfl, by decide, by decide, rfl,
      by decide⟩
  obtain ⟨t, run, routable, accepted⟩ := end_of_execUnder step AddedWhenGone
    { firstPublish with snapshot := some [] } [.publish { supply := [newToken] }]
    (fun t => t.routable "frontend" = true ∧
      constantTimeCompareToken t "g:frontend" newToken = true) (by decide +kernel)
  have reached : Reachable Started step AddedWhenGone firstPublish :=
    ⟨firstPublish, [], firstPublish_started, .nil⟩
  have stays : Run step (Keeps "frontend") firstPublish [.publish {}] firstPublish :=
    .snoc .nil trivial rfl
  refine ⟨_, t, recreated, routable, accepted, ?_, firstPublish, rfl, ?_⟩
  · exact (recreated_group_gets_new_token "frontend" oldToken firstPublish t _
      (by decide +kernel)).1 _ reached recreated run routable
  · exact (recreated_group_gets_new_token "frontend" oldToken firstPublish firstPublish _
      (by decide +kernel)).2 ⟨firstPublish, [], firstPublish_started, .nil⟩ (by decide)
      (by decide +kernel) stays

/-- With no publish in between, the next one takes the group for one that was live all along, and
serves it with the old token. -/
theorem recreated_frontend_inherits_token :
    ∃ s u t labels, Reachable Started step always s ∧
      constantTimeCompareToken s "g:frontend" oldToken = true ∧
      Recreated always "frontend" s u ∧ Run step always u labels t ∧
      t.routable "frontend" = true ∧
      constantTimeCompareToken t "g:frontend" oldToken = true := by
  have recreated : Recreated always "frontend" firstPublish firstPublish :=
    ⟨[], [], firstPublish, { firstPublish with groups := [] }, { firstPublish with groups := [] },
      deletion, addition, .nil, by decide, trivial, rfl, by decide, .nil, by decide, trivial, rfl,
      by decide⟩
  obtain ⟨t, done, routable, accepted⟩ := end_of_exec step firstPublish
    [.publish { supply := [newToken] }]
    (fun t => t.routable "frontend" = true ∧
      constantTimeCompareToken t "g:frontend" oldToken = true) (by decide +kernel)
  exact ⟨firstPublish, firstPublish, t, _, ⟨firstPublish, [], firstPublish_started, .nil⟩,
    by decide +kernel, recreated, run_of_exec done, routable, accepted⟩

structure Apart (supply : List String) (row : String → Option String) : Prop where
  nodup : supply.Nodup
  unused : ∀ key token, row key = some token → token ∉ supply
  injective : ∀ key other token, row key = some token → row other = some token → key = other

theorem Apart.insert {given key : String} {more : List String}
    (apart : Apart (given :: more) table.lookup) : Apart more (table.insert key given).lookup := by
  have fresh := nodup_cons.mp apart.nodup
  have old : ∀ other token, other ≠ key → (table.insert key given).lookup other = some token →
      table.lookup other = some token ∧ token ∉ given :: more := by
    intro other token differs found
    rw [AList.lookup_insert_ne differs] at found
    exact ⟨found, apart.unused other token found⟩
  have new : ∀ token, (table.insert key given).lookup key = some token → given = token :=
    fun token found => Option.some.inj ((AList.lookup_insert table).symm.trans found)
  refine ⟨fresh.2, fun other token found => ?_, fun left right token first second => ?_⟩
  · by_cases own : other = key
    · exact new token (own ▸ found) ▸ fresh.1
    · exact not_mem_of_not_mem_cons (old other token own found).2
  · by_cases isLeft : left = key <;> by_cases isRight : right = key
    · rw [isLeft, isRight]
    · obtain rfl := new token (isLeft ▸ first)
      exact absurd (.head _) (old right given isRight second).2
    · obtain rfl := new token (isRight ▸ second)
      exact absurd (.head _) (old left given isLeft first).2
    · exact apart.injective left right token (old left token isLeft first).1
        (old right token isRight second).1

theorem mintRows_apart {needs : TokenTable → String → Bool} {minted : TokenTable}
    {changed changed' : Bool} (apart : Apart supply table.lookup)
    (done : mintRows needs keys table changed supply = some (minted, changed', rest)) :
    Apart rest minted.lookup := by
  induction keys generalizing table changed supply with
  | nil =>
    obtain ⟨rfl, _, rfl⟩ := done
    exact apart
  | cons head keys ih =>
    rw [mintRows_cons] at done
    split_ifs at done
    · cases supply with
      | nil => cases done
      | cons token more => exact ih apart.insert done
    · exact ih apart done

theorem rotate_apart {declared active : List String} {knownGood cold : Bool}
    (apart : Apart input.supply s.fileRow)
    (done : rotateReusedGroupTokensLocked s declared active knownGood cold input = .ok (t, rest)) :
    Apart rest t.fileRow := by
  unfold rotateReusedGroupTokensLocked at done
  split at done
  · cases done
    exact apart
  split at done
  · cases done
    exact apart
  · cases done
  rename_i table loaded
  have file : s.fileRow = table.lookup := funext (fileRow_of_file (load_ok loaded))
  rw [file] at apart
  split at done
  · split at done <;> cases done
    exact file ▸ apart
  split at done
  · cases done
  · rename_i minting
    cases done
    have minted := mintRows_apart apart minting
    rw [(mintRows_unchanged minting).1] at minted
    exact file ▸ minted
  · rename_i minting
    split at done <;> cases done
    exact mintRows_apart apart minting

theorem ensure_apart (apart : Apart supply s.fileRow)
    (done : ensureHubTokensLocked s keys supply input = .ok t) : ∃ rest, Apart rest t.fileRow := by
  obtain ⟨table, file, stored⟩ := ensure_loaded done
  unfold ensureTable at stored
  split at stored
  · cases stored
  · cases stored
    exact ⟨supply, apart⟩
  · rename_i rest minting
    split at stored <;> cases stored
    exact ⟨rest, mintRows_apart (funext file ▸ apart) minting⟩

theorem publish_apart (apart : Apart input.supply s.fileRow) :
    ∃ rest, Apart rest (publishGroupsSnapshotLocked s input).1.fileRow := by
  have kept : ∃ rest, Apart rest s.fileRow := ⟨_, apart⟩
  unfold publishGroupsSnapshotLocked
  split
  · exact kept
  split
  · exact kept
  dsimp only
  generalize (if (s.snapshot.isSome && decide (s.status = .knownGood)) = true then
    s.snapshot.getD [] else []) = active
  split
  · exact kept
  split
  · exact kept
  rename_i rotation
  have rotated := rotate_apart apart rotation
  split
  · exact ⟨_, rotated⟩
  · rename_i ensuring
    obtain ⟨left, ensured⟩ := ensure_apart rotated ensuring
    exact ⟨left, ensured⟩

theorem publish_keeps_apart (seen : ∀ key token, s.fileRow key = some token → token ∈ s.seen)
    (apart : Apart [] s.fileRow) (moved : publish s input = some (t, error)) :
    Apart [] t.fileRow := by
  have fresh := (publish_step moved).1
  unfold publish at moved
  split_ifs at moved with supplied
  obtain ⟨rfl, rfl⟩ := Prod.mk.inj (Option.some.inj moved)
  simp only [freshSupply, Bool.and_eq_true, decide_eq_true_eq] at supplied
  have supplyApart : Apart input.supply s.fileRow := ⟨supplied.2,
    fun key token found listed => fresh token listed (seen key token found), apart.injective⟩
  obtain ⟨rest, after⟩ := publish_apart supplyApart
  exact ⟨nodup_nil, nofun, after.injective⟩

theorem step_keeps_apart (sound : Sound s) (apart : Apart [] s.fileRow)
    (moved : step s action = some t) : Apart [] t.fileRow := by
  cases action with
  | publish input =>
    obtain ⟨⟨u, error⟩, published, rfl⟩ := Option.map_eq_some_iff.mp moved
    exact publish_keeps_apart sound.seen apart published
  | modify input =>
    cases moved
    have old : ∀ key token, (readModifyWriteGroups s input).1.fileRow key = some token →
        s.fileRow key = some token := by
      intro key token found
      rcases (modify_modified s input).rows key with same | none
      · exact same ▸ found
      · rw [none] at found
        cases found
    exact ⟨nodup_nil, nofun, fun key other token first second =>
      apart.injective key other token (old key token first) (old other token second)⟩

/-- The first publish of a process that found no token twice in the file. -/
def StartedApart (s : State) : Prop :=
  ∃ boot input, Booted boot ∧ Apart [] boot.fileRow ∧ publish boot input = some (s, none)

/-- Along every run, a header that authenticates one scope authenticates no other. -/
theorem token_authenticates_one_scope (s : State) (key other header : String)
    (reached : Reachable StartedApart step always s) (differs : other ≠ key)
    (accepted : constantTimeCompareToken s key header = true) :
    constantTimeCompareToken s other header = false := by
  obtain ⟨start, labels, ⟨boot, input, booted, apart, first⟩, run⟩ := reached
  have started : Sound start := Started.sound ⟨boot, input, booted, first⟩
  obtain ⟨sound, apart⟩ := run_keeps run started (publish_keeps_apart booted.seen apart first)
    (fun sound apart _ moved => step_keeps_apart sound apart moved)
  rw [← Bool.not_eq_true]
  intro also
  have left := sound.live other header (compare_row also)
  have right := sound.live key header (compare_row accepted)
  exact differs (apart.injective other key header left right)

theorem token_authenticates_one_scope_minted :
    ∃ s, (Reachable StartedApart step always s ∧
        constantTimeCompareToken s "g:backend" newToken = true) ∧
      constantTimeCompareToken s "g:frontend" newToken = false := by
  refine Exists.imp (fun s held => ⟨held, token_authenticates_one_scope s "g:backend" "g:frontend"
    newToken held.1 (by decide) held.2⟩) ?_
  refine exists_reachable step firstPublish
    [.modify { added := ["backend"] }, .publish { supply := [newToken] }] ?_ (by decide +kernel)
  exact ⟨{ groups := ["frontend"] }, { supply := [oldToken] }, ⟨⟨rfl, rfl⟩, nofun, nofun⟩,
    ⟨nodup_nil, nofun, nofun⟩, rfl⟩

end McpLocalHub.Hub.GroupTokens
